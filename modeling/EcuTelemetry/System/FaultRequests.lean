/-
  EcuTelemetry.System.FaultRequests

  Fault requests from the API to the device and back.  `POST .../fault` writes a
  row and then sends a FAULT_INJECT; the device answers it with a FAULT_ACK.  The
  device also sends FAULT_ACKs that answer no request: when an injection has run
  out, on clear_faults, and for a FAULT_INJECT that is malformed.

  A FAULT_ACK does not say what it answers; here it carries that along, and the
  system remembers which row the backend updates with which FAULT_ACK.
-/

import EcuTelemetry.Backend.DeviceFrame

namespace EcuTelemetry.System

open EcuTelemetry.Backend Proc Protocol

variable {F : Type}

/-! ## The system -/

/-- A FAULT_INJECT on its way to a device, and the row of its request. -/
structure FaultRequest where
  conn : Nat
  dev : String
  row : Nat
deriving DecidableEq

/-- A FAULT_ACK on its way to the backend. -/
structure FaultReport where
  conn : Nat
  dev : String
  /-- the row of the FAULT_INJECT that it answers -/
  answers : Option Nat
  flags : Nat
deriving DecidableEq

structure FaultSystem (F : Type) where
  backend : Ingest F
  requests : List FaultRequest := []
  reports : List FaultReport := []
  /-- history variable: the rows whose FAULT_INJECT was written -/
  sent : List Nat := []
  /-- history variable: the rows updated, each with the FAULT_ACK -/
  applied : List (Nat × FaultReport) := []

inductive FaultEvent (F : Type)
  /-- `POST /api/devices/{id}/fault` -/
  | request (dev : String) (body : FaultBody) (clock : Clock F)
  /-- a device takes a FAULT_INJECT and answers it -/
  | answer (i : Nat) (flags : Nat)
  /-- a device sends a FAULT_ACK that answers nothing -/
  | unsolicited (conn : Nat) (dev : String) (flags : Nat)
  /-- the handler of a connection takes a FAULT_ACK -/
  | report (i : Nat) (hdr : Header) (clock : Clock F)
  /-- a frame is lost with its connection -/
  | loseRequest (i : Nat)
  | loseReport (i : Nat)
  /-- anything else that happens to the backend -/
  | other (e : Event F)

/-- A fault request or a FAULT_ACK, which have events of their own. -/
def ofFaults : Event F → Bool
  | .faultInject .. => true
  | .frame _ f _ =>
    match f.payload with
    | .known (.faultAck _) => true
    | _ => false
  | _ => false

/-- The frame of a FAULT_ACK. -/
def FaultReport.frame (p : FaultReport) (hdr : Header) : Frame :=
  { header := { hdr with deviceId := p.dev }, payload := .known (.faultAck ⟨p.flags⟩), raw := [] }

namespace FaultSystem

/-- The row `fault_injection_ack` updates. -/
def newestRow (s : FaultSystem F) (dev : String) : Option Nat :=
  (Database.newest s.backend.db.faultInjections (·.deviceId = dev)).map (·.id)

variable [PyFloat F] [PyText F]

def step (s : FaultSystem F) : FaultEvent F → FaultSystem F
  | .request dev body clock =>
    let backend := s.backend.step (.faultInject dev body clock)
    let row := s.backend.db.nextFaultId
    -- a request that finds no connection writes nothing, and its row is never answered
    let written := backend.wrote.drop s.backend.wrote.length
    { s with
      backend := backend
      requests := s.requests ++ written.map fun w => ⟨w.conn, dev, row⟩
      sent := s.sent ++ written.map fun _ => row }
  | .answer i flags =>
    match s.requests[i]? with
    | none => s
    | some q =>
      { s with
        requests := s.requests.eraseIdx i
        reports := s.reports ++ [⟨q.conn, q.dev, some q.row, flags⟩] }
  | .unsolicited conn dev flags => { s with reports := s.reports ++ [⟨conn, dev, none, flags⟩] }
  | .report i hdr clock =>
    match s.reports[i]? with
    | none => s
    | some p =>
      -- a FAULT_ACK on a connection that is closed is not handled
      if s.backend.takes p.conn p.dev then
        { s with
          backend := s.backend.step (.frame p.conn (p.frame hdr) clock)
          reports := s.reports.eraseIdx i
          applied := s.applied ++ (s.newestRow p.dev).toList.map fun row => (row, p) }
      else s
  | .loseRequest i => { s with requests := s.requests.eraseIdx i }
  | .loseReport i => { s with reports := s.reports.eraseIdx i }
  | .other e => if ofFaults e then s else { s with backend := s.backend.step e }

/-- A run on a new database. -/
def start : FaultSystem F := { backend := Ingest.load (Engine.init {}) }

def run (events : List (FaultEvent F)) : FaultSystem F := exec step start events

/-! ## Rows and their acknowledgements -/

/-- The acknowledgements are those of the requests. -/
structure Attributed (s : FaultSystem F) : Prop where
  /-- what a row shows came with a FAULT_ACK to its own FAULT_INJECT -/
  own : ∀ r ∈ s.backend.db.faultInjections, ∀ flags, r.ackFlags = some flags →
    ∃ p, (r.id, p) ∈ s.applied ∧ p.flags = flags ∧ p.answers = some r.id
  /-- and so did all that it has shown -/
  always : ∀ r ∈ s.backend.db.faultInjections, ∀ p, (r.id, p) ∈ s.applied → p.answers = some r.id
  /-- a request that was not sent shows nothing -/
  sent : ∀ r ∈ s.backend.db.faultInjections, r.ackFlags.isSome → r.id ∈ s.sent

/-- A FAULT_ACK that is taken answers a request, and the device has had no request
    after that one, sent or not; or the device has had none at all. -/
def ReportMet (s : FaultSystem F) : FaultEvent F → Prop
  | .report i _ _ => ∀ p, s.reports[i]? = some p → s.backend.takes p.conn p.dev = true →
      ∀ r ∈ s.backend.db.faultInjections, r.deviceId = p.dev → ∃ o, p.answers = some o ∧ r.id ≤ o
  | _ => True

end FaultSystem

/-! ## The table of the requests -/

/-- The table of the fault injections is the same. -/
def SameFaults (s s' : Ingest F) : Prop :=
  s'.db.faultInjections = s.db.faultInjections ∧ s'.db.nextFaultId = s.db.nextFaultId

instance : IsPreorder (Ingest F) (SameFaults (F := F)) where
  refl _ := ⟨rfl, rfl⟩
  trans _ _ _ h h' := ⟨h'.1.trans h.1, h'.2.trans h.2⟩

theorem SameFaults.of_engine {s s' : Ingest F} (h : s'.engine = s.engine) : SameFaults s s' := by
  rw [SameFaults, Ingest.db, Ingest.db, h]
  exact ⟨rfl, rfl⟩

/-- Any database without the engine's tables. -/
theorem SameFaults.of_others {s s' : Ingest F} (h : s'.db.others = s.db.others) :
    SameFaults s s' := by
  have hrows : s'.db.others.faultInjections = s.db.others.faultInjections := by rw [h]
  have hnext : s'.db.others.nextFaultId = s.db.others.nextFaultId := by rw [h]
  exact ⟨hrows, hnext⟩

section Frame

variable [PyFloat F] [PyText F]

theorem sameFaults_engineDo (s : Ingest F) {e : EngineEvent F} (he : ∀ db, e ≠ .write db) :
    SameFaults s (Ingest.engineDo e s).2 := by
  refine Keeps.bind (Keeps.zoom (Engine.keeps_sameTables_handle he) ?_) (fun _ => Keeps.pure ()) s
  exact fun _ _ h => .of_others h

omit [PyFloat F] [PyText F] in
theorem faults_upsertDevice (db : Database F) (dev : String) (lastSeen : F)
    (fields : DeviceRow F → DeviceRow F) :
    (db.upsertDevice dev lastSeen fields).faultInjections = db.faultInjections ∧
      (db.upsertDevice dev lastSeen fields).nextFaultId = db.nextFaultId := by
  rw [Database.upsertDevice]
  split <;> exact ⟨rfl, rfl⟩

omit [PyFloat F] [PyText F] in
/-- Saving statistics writes no fault row. -/
theorem faults_saveStats (stats : Dict String (DeviceStats F)) (db : Database F) :
    (stats.foldl (fun db e => db.saveStats (e.2.statsRow e.1)) db).faultInjections =
        db.faultInjections ∧
      (stats.foldl (fun db e => db.saveStats (e.2.statsRow e.1)) db).nextFaultId =
        db.nextFaultId := by
  induction stats generalizing db with
  | nil => exact ⟨rfl, rfl⟩
  | cons e stats ih =>
    obtain ⟨hrows, hnext⟩ := ih (db.saveStats (e.2.statsRow e.1))
    have hone : (db.saveStats (e.2.statsRow e.1)).faultInjections = db.faultInjections ∧
        (db.saveStats (e.2.statsRow e.1)).nextFaultId = db.nextFaultId := by
      rw [Database.saveStats]
      split <;> exact ⟨rfl, rfl⟩
    exact ⟨hrows.trans hone.1, hnext.trans hone.2⟩

/-- Requests and FAULT_ACKs apart, nothing touches the table. -/
theorem sameFaults_frame : Ingest.EventFrame (SameFaults (F := F)) where
  device dev := ⟨fun s s' h => by
    cases h with
    | st => exact .of_engine (by rw [Ingest.st]; split <;> rfl)
    | modifySt f _ => exact .of_engine (Ingest.keeps_sameEngine_modifySt dev f s)
    | telemetry hdr t now clock loss => exact sameFaults_engineDo s fun _ => by simp
    | online now clock => exact sameFaults_engineDo s fun _ => by simp
    | offline now clock => exact sameFaults_engineDo s fun _ => by simp
    | invalidate => exact sameFaults_engineDo s fun _ => by simp
    | wrote w => exact .of_engine rfl
    | suspend task => exact .of_engine rfl
    | note n => exact .of_engine rfl
    | write h =>
      cases h with
      -- an upsert changes the device table, the other writes theirs
      | upsert lastSeen fields _ => exact faults_upsertDevice s.db dev lastSeen fields
      | _ => exact ⟨rfl, rfl⟩⟩
  fleet s s' h := by
    cases h with
    | tick now clock => exact sameFaults_engineDo s fun _ => by simp
    | ackAlert aid clock => exact sameFaults_engineDo s fun _ => by simp
    | firmwareAdd version notes sizeBytes crc now => exact ⟨rfl, rfl⟩
    | saveStats => exact faults_saveStats s.stats s.db
    | fwJobUpdate jid status now => exact ⟨rfl, rfl⟩
  lost c s := .of_engine rfl
  registerFirst c f s := .of_engine (Ingest.keeps_sameEngine_registerFirst c f s)
  endHandler c s := .of_engine (Ingest.keeps_sameEngine_endHandler c s)
  resume s i := .of_engine rfl
  restart := by
    have hengine : Keeps SameFaults (Ingest.engineDo (F := F) .restart) :=
      fun s => sameFaults_engineDo s fun _ => by simp
    exact hengine.bind fun _ => Keeps.modify fun s => .of_engine rfl

/-- Events of other tables leave the fault rows. -/
theorem sameFaults_step {e : Event F} (he : ofFaults e = false) (s : Ingest F) :
    SameFaults s (s.step e) := by
  refine sameFaults_frame.handle e ?_ ?_ (fun _ _ s => sameFaults_engineDo s fun _ => by simp) s
  · rintro c f clock rfl p hp
    rw [ofFaults, hp] at he
    cases he
  · rintro dev body clock rfl
    cases he

omit [PyFloat F] [PyText F] in
theorem st_run_wrote (dev : String) (s : Ingest F) :
    ∃ r s', Ingest.st dev s = (.ok r, s') ∧ s'.wrote = s.wrote := by
  rw [Ingest.st]
  split <;> exact ⟨_, _, rfl, rfl⟩

omit [PyFloat F] [PyText F] in
theorem modifySt_run_wrote (dev : String) (f : DeviceStats F → DeviceStats F) (s : Ingest F) :
    ∃ s', Ingest.modifySt dev f s = (.ok (), s') ∧ s'.wrote = s.wrote := by
  obtain ⟨r, s', hst, hwrote⟩ := st_run_wrote dev s
  exact ⟨_, bind_run_ok hst, hwrote⟩

/-- At most one frame is written, and none of the rows changes. -/
theorem write_spec (dev : String) (payload : Payload) (clock : Clock F) (s : Ingest F) :
    let s' := (Ingest.write dev payload clock s).2
    SameFaults s s' ∧ (s'.wrote = s.wrote ∨ ∃ w, s'.wrote = s.wrote ++ [w]) := by
  refine ⟨(sameFaults_frame.device dev).write payload clock s, ?_⟩
  rw [Ingest.write, bind_run_ok (get_run s)]
  rcases s.openWriter dev with _ | c
  · exact .inl rfl
  dsimp only
  obtain ⟨s₁, hmodify, hs₁⟩ := modifySt_run_wrote dev (fun r => { r with txSeq := r.txSeq + 1 }) s
  obtain ⟨r, s₂, hst, hs₂⟩ := st_run_wrote dev s₁
  rw [bind_run_ok hmodify, bind_run_ok hst, bind_run, ofExcept_run]
  -- `encode` may raise
  rcases encode payload.type dev r.txSeq clock.ms _ (.known payload) with _ | bytes
  · exact .inl (hs₂.trans hs₁)
  · exact .inr ⟨⟨c, payload, bytes⟩, congrArg (· ++ _) (hs₂.trans hs₁)⟩

/-- A request adds a row, and then it may write one frame; or it does neither. -/
theorem faultInject_spec (dev : String) (body : FaultBody) (clock : Clock F) (s : Ingest F) :
    let s' := s.step (.faultInject dev body clock)
    SameFaults s s' ∧ s'.wrote = s.wrote ∨
    (∃ row : FaultInjectionRow F, row.id = s.db.nextFaultId ∧ row.deviceId = dev ∧
      row.ackFlags = none ∧ s'.db.faultInjections = s.db.faultInjections ++ [row] ∧
      s'.db.nextFaultId = s.db.nextFaultId + 1) ∧
        (s'.wrote = s.wrote ∨ ∃ w, s'.wrote = s.wrote ++ [w]) := by
  rw [Ingest.step, Ingest.handle, Ingest.faultInject, bind_run_ok (get_run s)]
  by_cases hrefused : (!(body.valid && (s.db.getDevice dev).isSome)) = true
  · rw [if_pos hrefused]
    exact .inl ⟨refl_of SameFaults s, rfl⟩
  rw [if_neg hrefused]
  rcases namesToFlags body.set with _ | setFlags
  · exact .inl ⟨refl_of SameFaults s, rfl⟩
  rcases namesToFlags body.clear with _ | clearFlags
  · exact .inl ⟨refl_of SameFaults s, rfl⟩
  dsimp only
  by_cases hduration : body.durationMs < 2 ^ 63
  · rw [if_pos hduration]
    -- the row is there before the push
    obtain ⟨s₁, hadd, hs₁⟩ : ∃ s₁, Ingest.modifyDb (fun db : Database F =>
        db.faultInjectionAdd dev setFlags clearFlags body.durationMs.toNat) s = (.ok (), s₁) ∧
          s₁.wrote = s.wrote ∧
          s₁.db = s.db.faultInjectionAdd dev setFlags clearFlags body.durationMs.toNat :=
      ⟨_, rfl, rfl, rfl⟩
    rw [bind_run_ok hadd, bind_pure_state]
    obtain ⟨⟨hrows, hnext⟩, hwrote⟩ :=
      write_spec dev (.faultInject ⟨setFlags, clearFlags, body.durationMs.toNat⟩) clock s₁
    rw [hs₁.2] at hrows hnext
    rw [hs₁.1] at hwrote
    exact .inr ⟨⟨_, rfl, rfl, rfl, hrows, hnext⟩, hwrote⟩
  · rw [if_neg hduration]
    exact .inl ⟨refl_of SameFaults s, rfl⟩

/-- A FAULT_ACK updates the newest row. -/
theorem faultAck_spec {s : Ingest F} {p : FaultReport} (h : s.takes p.conn p.dev = true)
    (hdr : Header) (clock : Clock F) :
    let s' := s.step (.frame p.conn (p.frame hdr) clock)
    s'.db.faultInjections = (s.db.faultInjectionAck p.dev p.flags).faultInjections ∧
      s'.db.nextFaultId = (s.db.faultInjectionAck p.dev p.flags).nextFaultId := by
  have htakes : s.takes p.conn (p.frame hdr).deviceId = true := h
  have hregister : (Ingest.registerFirst p.conn (p.frame hdr) s).2.engine = s.engine :=
    Ingest.keeps_sameEngine_registerFirst p.conn (p.frame hdr) s
  have hengine : (s.step (.frame p.conn (p.frame hdr) clock)).engine =
      (Ingest.dispatch p.conn (p.frame hdr) clock
        (Ingest.registerFirst p.conn (p.frame hdr) s).2).2.engine := by
    rw [Ingest.step, Ingest.handle, Ingest.onFrame_run htakes, Ingest.guarded_engine,
      Ingest.takeFrame_run htakes]
  dsimp only [Ingest.db]
  rw [hengine, ← hregister]
  exact ⟨rfl, rfl⟩

end Frame

/-! ## The newest row -/

/-- All that comes before the newest row is related to it. -/
theorem newest_max {α : Type} {R : α → α → Prop} {rows : List α} {p : α → Bool} {x : α}
    (hrows : rows.Pairwise R) (h : Database.newest rows p = some x) :
    x ∈ rows ∧ p x ∧ ∀ y ∈ rows, p y → y = x ∨ R y x := by
  obtain ⟨hp, later, earlier, hsplit, hlater⟩ := List.find?_eq_some_iff_append.mp h
  have hrows' : rows = earlier.reverse ++ x :: later.reverse := by
    rw [← List.reverse_reverse rows, hsplit]
    simp
  rw [hrows'] at hrows ⊢
  refine ⟨by simp, hp, fun y hy hpy => ?_⟩
  rcases List.mem_append.mp hy with hy | hy
  · exact .inr ((List.pairwise_append.mp hrows).2.2 y hy x List.mem_cons_self)
  · rcases List.mem_cons.mp hy with rfl | hy
    · exact .inl rfl
    · -- the newest row has none behind it
      have hnot := hlater y (List.mem_reverse.mp hy)
      rw [hpy] at hnot
      cases hnot

/-- An ACK goes to the newest row of its device, if there is one. -/
theorem faultInjectionAck_cases (db : Database F) (dev : String) (flags : Nat) :
    (Database.newest db.faultInjections (·.deviceId = dev) = none ∧
      db.faultInjectionAck dev flags = db) ∨
    ∃ r₀, Database.newest db.faultInjections (·.deviceId = dev) = some r₀ ∧
      (db.faultInjectionAck dev flags).faultInjections = db.faultInjections.map fun f =>
        if f.id = r₀.id then { f with ackFlags := some flags } else f := by
  rw [Database.faultInjectionAck]
  rcases Database.newest db.faultInjections (·.deviceId = dev) with _ | r₀
  · exact .inl ⟨rfl, rfl⟩
  · exact .inr ⟨r₀, rfl, rfl⟩

/-! ## What holds in every run -/

namespace FaultSystem

/-- The rows of a system. -/
def rows (s : FaultSystem F) : List (FaultInjectionRow F) := s.backend.db.faultInjections

/-- The FAULT_INJECT for a row of the device was written. -/
def Sent (s : FaultSystem F) (row : Nat) (dev : String) : Prop :=
  row ∈ s.sent ∧ ∃ r ∈ s.rows, r.id = row ∧ r.deviceId = dev

structure Inv (s : FaultSystem F) : Prop where
  ordered : s.rows.Pairwise (·.id < ·.id)
  below : ∀ r ∈ s.rows, r.id < s.backend.db.nextFaultId
  asked : ∀ q ∈ s.requests, s.Sent q.row q.dev
  answered : ∀ p ∈ s.reports, ∀ row, p.answers = some row → s.Sent row p.dev
  applied : ∀ x ∈ s.applied, (∃ r ∈ s.rows, r.id = x.1) ∧ ∀ row, x.2.answers = some row →
      row ∈ s.sent
  shown : ∀ r ∈ s.rows, ∀ flags, r.ackFlags = some flags →
    ∃ p, (r.id, p) ∈ s.applied ∧ p.flags = flags

/-- Each FAULT_ACK was applied to the row it answers. -/
def AppliedRight (s : FaultSystem F) : Prop := ∀ x ∈ s.applied, x.2.answers = some x.1

/-- Rows are attributed right exactly when every ACK was applied right. -/
theorem Inv.attributed_iff {s : FaultSystem F} (h : s.Inv) : s.Attributed ↔ s.AppliedRight := by
  constructor
  · intro ha x hx
    obtain ⟨⟨r, hr, hid⟩, -⟩ := h.applied x hx
    rw [← hid]
    exact ha.always r hr x.2 (hid ▸ hx)
  · intro ha
    have hown : ∀ r ∈ s.rows, ∀ flags, r.ackFlags = some flags →
        ∃ p, (r.id, p) ∈ s.applied ∧ p.flags = flags ∧ p.answers = some r.id := by
      intro r hr flags hflags
      obtain ⟨p, hp, hpflags⟩ := h.shown r hr flags hflags
      exact ⟨p, hp, hpflags, ha _ hp⟩
    refine ⟨hown, fun r hr p hp => ha _ hp, fun r hr hsome => ?_⟩
    obtain ⟨flags, hflags⟩ := Option.isSome_iff_exists.mp hsome
    obtain ⟨p, hp, -, hanswers⟩ := hown r hr flags hflags
    exact (h.applied _ hp).2 r.id hanswers

/-- Rows stay, and so do the requests that were sent. -/
structure Grows (s s' : FaultSystem F) : Prop where
  rows : ∀ r ∈ s.rows, ∃ r' ∈ s'.rows, r'.id = r.id ∧ r'.deviceId = r.deviceId
  sent : ∀ row ∈ s.sent, row ∈ s'.sent

theorem Grows.sent_mono {s s' : FaultSystem F} (h : Grows s s') {row : Nat} {dev : String}
    (hsent : s.Sent row dev) : s'.Sent row dev := by
  obtain ⟨hmem, r, hr, rfl, rfl⟩ := hsent
  exact ⟨h.sent _ hmem, h.rows r hr⟩

/-- Where no row changes. -/
theorem Inv.sameRows {s s' : FaultSystem F} (h : s.Inv) (hsame : SameFaults s.backend s'.backend)
    (hsent : s'.sent = s.sent) (happlied : s'.applied = s.applied)
    (hasked : ∀ q ∈ s'.requests, q ∈ s.requests)
    (hanswered : ∀ p ∈ s'.reports, p ∈ s.reports ∨
      ∀ row, p.answers = some row → s.Sent row p.dev) : s'.Inv := by
  have hrows : s'.rows = s.rows := hsame.1
  -- the same rows are rows that have grown
  have hgrows : Grows s s' :=
    ⟨fun r hr => ⟨r, hrows ▸ hr, rfl, rfl⟩, fun row hrow => hsent ▸ hrow⟩
  constructor
  · exact hrows ▸ h.ordered
  · intro r hr
    rw [hsame.2]
    exact h.below r (hrows ▸ hr)
  · exact fun q hq => hgrows.sent_mono (h.asked q (hasked q hq))
  · intro p hp row hrow
    rcases hanswered p hp with hp | hp
    · exact hgrows.sent_mono (h.answered p hp row hrow)
    · exact hgrows.sent_mono (hp row hrow)
  · rw [happlied, hrows, hsent]
    exact h.applied
  · rw [happlied, hrows]
    exact h.shown

/-- A new row, and perhaps its FAULT_INJECT. -/
theorem Inv.newRow {s s' : FaultSystem F} (h : s.Inv) {row : FaultInjectionRow F}
    (hid : row.id = s.backend.db.nextFaultId) (hack : row.ackFlags = none)
    (hrows : s'.rows = s.rows ++ [row])
    (hnext : s'.backend.db.nextFaultId = s.backend.db.nextFaultId + 1)
    (hreports : s'.reports = s.reports) (happlied : s'.applied = s.applied)
    (hsent : ∀ x ∈ s.sent, x ∈ s'.sent)
    (hasked : ∀ q ∈ s'.requests, q ∈ s.requests ∨
      q.row = row.id ∧ q.dev = row.deviceId ∧ row.id ∈ s'.sent) : s'.Inv := by
  -- rows and requests are only added
  have hgrows : Grows s s' :=
    ⟨fun r hr => ⟨r, hrows ▸ List.mem_append_left _ hr, rfl, rfl⟩, hsent⟩
  have hmem : row ∈ s'.rows := hrows ▸ List.mem_append_right _ List.mem_cons_self
  constructor
  · rw [hrows, List.pairwise_append]
    -- the new id is the counter, above all others
    refine ⟨h.ordered, List.pairwise_singleton _ _, fun r hr r' hr' => ?_⟩
    rw [List.mem_singleton.mp hr', hid]
    exact h.below r hr
  · intro r hr
    rw [hnext]
    rw [hrows] at hr
    rcases List.mem_append.mp hr with hr | hr
    · exact Nat.lt_succ_of_lt (h.below r hr)
    · rw [List.mem_singleton.mp hr, hid]
      exact Nat.lt_succ_self _
  · intro q hq
    rcases hasked q hq with hq | ⟨hrow, hdev, hsent⟩
    · exact hgrows.sent_mono (h.asked q hq)
    · rw [hrow, hdev]
      exact ⟨hsent, row, hmem, rfl, rfl⟩
  · rw [hreports]
    exact fun p hp o ho => hgrows.sent_mono (h.answered p hp o ho)
  · rw [happlied]
    intro x hx
    obtain ⟨⟨r, hr, hrid⟩, hanswers⟩ := h.applied x hx
    exact ⟨⟨r, hrows ▸ List.mem_append_left _ hr, hrid⟩, fun o ho => hsent o (hanswers o ho)⟩
  · rw [happlied, hrows]
    intro r hr flags hflags
    rcases List.mem_append.mp hr with hr | hr
    · exact h.shown r hr flags hflags
    · -- the new row shows nothing
      rw [List.mem_singleton.mp hr, hack] at hflags
      cases hflags

/-- A FAULT_ACK that updates a row. -/
theorem Inv.ackRow {s s' : FaultSystem F} (h : s.Inv) {p : FaultReport} {r₀ : FaultInjectionRow F}
    (hp : p ∈ s.reports) (hr₀ : r₀ ∈ s.rows)
    (hrows : s'.rows = s.rows.map fun f =>
      if f.id = r₀.id then { f with ackFlags := some p.flags } else f)
    (hnext : s'.backend.db.nextFaultId = s.backend.db.nextFaultId)
    (hrequests : s'.requests = s.requests) (hsent : s'.sent = s.sent)
    (hreports : ∀ p ∈ s'.reports, p ∈ s.reports)
    (happlied : s'.applied = s.applied ++ [(r₀.id, p)]) : s'.Inv := by
  -- an acknowledgement changes neither id nor device
  have hkept : ∀ f : FaultInjectionRow F,
      (if f.id = r₀.id then { f with ackFlags := some p.flags } else f).id = f.id ∧
      (if f.id = r₀.id then { f with ackFlags := some p.flags } else f).deviceId = f.deviceId := by
    intro f
    split <;> exact ⟨rfl, rfl⟩
  have hgrows : Grows s s' := by
    refine ⟨fun r hr => ⟨_, ?_, hkept r⟩, fun row hrow => hsent ▸ hrow⟩
    rw [hrows]
    exact List.mem_map_of_mem hr
  constructor
  · rw [hrows, List.pairwise_map]
    exact h.ordered.imp fun {a b} hab => by rw [(hkept a).1, (hkept b).1]; exact hab
  · intro r hr
    rw [hrows] at hr
    obtain ⟨f, hf, rfl⟩ := List.mem_map.mp hr
    rw [(hkept f).1, hnext]
    exact h.below f hf
  · rw [hrequests]
    exact fun q hq => hgrows.sent_mono (h.asked q hq)
  · exact fun q hq o ho => hgrows.sent_mono (h.answered q (hreports q hq) o ho)
  · rw [happlied, hsent]
    intro x hx
    -- the old updates, and the one that is made here
    rcases List.mem_append.mp hx with hx | hx
    · obtain ⟨⟨r, hr, hrid⟩, hanswers⟩ := h.applied x hx
      obtain ⟨r', hr', hid', -⟩ := hgrows.rows r hr
      exact ⟨⟨r', hr', hid'.trans hrid⟩, hanswers⟩
    · rw [List.mem_singleton.mp hx]
      obtain ⟨r', hr', hid', -⟩ := hgrows.rows r₀ hr₀
      exact ⟨⟨r', hr', hid'⟩, fun o ho => (h.answered p hp o ho).1⟩
  · rw [happlied, hrows]
    intro r hr flags hflags
    obtain ⟨f, hf, rfl⟩ := List.mem_map.mp hr
    -- the row updated shows the flags of this report, the others what they showed
    by_cases hid : f.id = r₀.id
    · rw [if_pos hid] at hflags ⊢
      refine ⟨p, List.mem_append_right _ ?_, Option.some.inj hflags⟩
      rw [hid]
      exact List.mem_cons_self
    · rw [if_neg hid] at hflags ⊢
      obtain ⟨q, hq, hqflags⟩ := h.shown f hf flags hflags
      exact ⟨q, List.mem_append_left _ hq, hqflags⟩

variable [PyFloat F] [PyText F]

omit [PyText F] in
theorem inv_start : (start (F := F)).Inv where
  ordered := .nil
  below := nofun
  asked := nofun
  answered := nofun
  applied := nofun
  shown := nofun

omit [PyFloat F] [PyText F] in
theorem newestRow_eq {s : FaultSystem F} {dev : String} {r₀ : FaultInjectionRow F}
    (h : Database.newest s.rows (·.deviceId = dev) = some r₀) : s.newestRow dev = some r₀.id := by
  rw [newestRow]
  exact congrArg (Option.map _) h

/-- A FAULT_ACK finds no row, or it updates the newest one. -/
theorem report_cases {s : FaultSystem F} {i : Nat} {p : FaultReport} (hp : s.reports[i]? = some p)
    (htakes : s.backend.takes p.conn p.dev = true) (hdr : Header) (clock : Clock F) :
    let s' := s.step (.report i hdr clock)
    s'.requests = s.requests ∧ s'.sent = s.sent ∧ s'.reports = s.reports.eraseIdx i ∧
      ((Database.newest s.rows (·.deviceId = p.dev) = none ∧ SameFaults s.backend s'.backend ∧
        s'.applied = s.applied) ∨
      ∃ r₀, Database.newest s.rows (·.deviceId = p.dev) = some r₀ ∧
        s'.rows = s.rows.map (fun f =>
          if f.id = r₀.id then { f with ackFlags := some p.flags } else f) ∧
        s'.backend.db.nextFaultId = s.backend.db.nextFaultId ∧
        s'.applied = s.applied ++ [(r₀.id, p)]) := by
  obtain ⟨hrows, hnext⟩ := faultAck_spec htakes hdr clock
  have hstep : s.step (.report i hdr clock) =
      { s with
        backend := s.backend.step (.frame p.conn (p.frame hdr) clock)
        reports := s.reports.eraseIdx i
        applied := s.applied ++ (s.newestRow p.dev).toList.map fun row => (row, p) } := by
    rw [step, hp]
    exact if_pos htakes
  rw [hstep]
  refine ⟨rfl, rfl, rfl, ?_⟩
  -- no row of the device at all, or a newest one
  rcases faultInjectionAck_cases s.backend.db p.dev p.flags with ⟨hnone, hdb⟩ | ⟨r₀, hr₀, hdb⟩
  · rw [hdb] at hrows hnext
    refine .inl ⟨hnone, ⟨hrows, hnext⟩, ?_⟩
    rw [newestRow, hnone]
    exact List.append_nil _
  · refine .inr ⟨r₀, hr₀, hrows.trans hdb, ?_, ?_⟩
    · rw [hnext, Database.faultInjectionAck]
      split <;> rfl
    · rw [newestRow_eq hr₀]
      rfl

/-- One event of the backend or the device. -/
theorem inv_step (s : FaultSystem F) (e : FaultEvent F) (h : s.Inv) : (s.step e).Inv := by
  have hreports : ∀ {i : Nat}, ∀ p ∈ s.reports.eraseIdx i, p ∈ s.reports :=
    fun p hp => List.mem_of_mem_eraseIdx hp
  cases e with
  | request dev body clock =>
    rcases faultInject_spec dev body clock s.backend with
      ⟨hsame, hwrote⟩ | ⟨⟨row, hid, hdev, hack, hrows, hnext⟩, hwrote⟩
    -- refused, or not written: no row, so no request
    · have hnothing : (s.backend.step (.faultInject dev body clock)).wrote.drop
          s.backend.wrote.length = [] := by
        rw [hwrote, List.drop_length]
      rw [step, hnothing]
      refine h.sameRows hsame (List.append_nil _) rfl (fun q hq => ?_) fun p hp => .inl hp
      exact (List.append_nil s.requests) ▸ hq
    -- a row and a FAULT_INJECT under its id
    · refine h.newRow hid hack hrows hnext rfl rfl (fun x hx => List.mem_append_left _ hx) ?_
      intro q hq
      rcases List.mem_append.mp hq with hq | hq
      · exact .inl hq
      · obtain ⟨w, hw, rfl⟩ := List.mem_map.mp hq
        refine .inr ⟨hid.symm, hdev.symm, List.mem_append_right _ ?_⟩
        rw [hid]
        exact List.mem_map.mpr ⟨w, hw, rfl⟩
  | answer i flags =>
    rw [step]
    rcases hq : s.requests[i]? with _ | q
    · exact h
    refine h.sameRows (refl_of SameFaults _) rfl rfl (fun q hq => List.mem_of_mem_eraseIdx hq) ?_
    -- the report is asked for by the row of the request it answers
    intro p hp
    rcases List.mem_append.mp hp with hp | hp
    · exact .inl hp
    · rw [List.mem_singleton.mp hp]
      exact .inr fun row hrow => Option.some.inj hrow ▸ h.asked q (List.mem_of_getElem? hq)
  | unsolicited conn dev flags =>
    refine h.sameRows (refl_of SameFaults _) rfl rfl (fun q hq => hq) fun p hp => ?_
    rcases List.mem_append.mp hp with hp | hp
    · exact .inl hp
    · rw [List.mem_singleton.mp hp]
      exact .inr nofun
  | report i hdr clock =>
    rcases hp : s.reports[i]? with _ | p
    · rw [step, hp]
      exact h
    -- a handler that is busy or has ended leaves the report in its buffer
    by_cases htakes : s.backend.takes p.conn p.dev = true
    · obtain ⟨hrequests, hsent, hreports', hnone | ⟨r₀, hr₀, hrows, hnext, happlied⟩⟩ :=
        report_cases hp htakes hdr clock
      · refine h.sameRows hnone.2.1 hsent hnone.2.2 (fun q hq => hrequests ▸ hq) fun q hq => ?_
        exact .inl (hreports q (hreports' ▸ hq))
      -- the row that takes the report is the newest one without an acknowledgement
      · refine h.ackRow (List.mem_of_getElem? hp) (newest_max h.ordered hr₀).1 hrows hnext hrequests
          hsent (fun q hq => ?_) happlied
        exact hreports q (hreports' ▸ hq)
    · rw [step, hp]
      dsimp only
      rw [if_neg htakes]
      exact h
  | loseRequest i =>
    exact h.sameRows (refl_of SameFaults _) rfl rfl (fun q hq => List.mem_of_mem_eraseIdx hq)
      fun p hp => .inl hp
  | loseReport i =>
    exact h.sameRows (refl_of SameFaults _) rfl rfl (fun q hq => hq)
      fun p hp => .inl (hreports p hp)
  | other e =>
    rw [step]
    by_cases he : ofFaults e = true
    · rw [if_pos he]
      exact h
    · rw [if_neg he]
      exact h.sameRows (sameFaults_step (Bool.not_eq_true _ ▸ he) s.backend) rfl rfl
        (fun q hq => hq) fun p hp => .inl hp

theorem inv_run (events : List (FaultEvent F)) : (run events).Inv :=
  exec_invariant inv_step inv_start

omit [PyFloat F] [PyText F] in
/-- The newest row is the one a FAULT_ACK answers. -/
theorem answers_newest_iff {s : FaultSystem F} (h : s.Inv) {p : FaultReport} (hp : p ∈ s.reports)
    {r₀ : FaultInjectionRow F} (hr₀ : Database.newest s.rows (·.deviceId = p.dev) = some r₀) :
    p.answers = some r₀.id ↔
      ∀ r ∈ s.rows, r.deviceId = p.dev → ∃ o, p.answers = some o ∧ r.id ≤ o := by
  obtain ⟨hmem, hdev, hmax⟩ := newest_max h.ordered hr₀
  have hle : ∀ r ∈ s.rows, r.deviceId = p.dev → r.id ≤ r₀.id := by
    intro r hr hrdev
    rcases hmax r hr (decide_eq_true hrdev) with rfl | hlt
    · exact le_refl _
    · exact hlt.le
  constructor
  · exact fun hanswers r hr hrdev => ⟨r₀.id, hanswers, hle r hr hrdev⟩
  · intro hmet
    obtain ⟨o, ho, hge⟩ := hmet r₀ hmem (of_decide_eq_true hdev)
    -- what it answers is a row of the device, so no later than the newest
    obtain ⟨-, r, hr, hid, hrdev⟩ := h.answered p hp o ho
    have hlast := hle r hr hrdev
    rw [hid] at hlast
    rw [ho, le_antisymm hlast hge]

omit [PyFloat F] [PyText F] in
theorem appliedRight_append {s s' : FaultSystem F} {x : Nat × FaultReport}
    (h : s'.applied = s.applied ++ [x]) :
    s'.AppliedRight ↔ s.AppliedRight ∧ x.2.answers = some x.1 := by
  rw [AppliedRight, AppliedRight, h, List.forall_mem_append, List.forall_mem_singleton]

/-- A FAULT_ACK reaches the row it answers exactly if that is the newest one. -/
theorem appliedRight_step (s : FaultSystem F) (e : FaultEvent F) (h : s.Inv) :
    (s.step e).AppliedRight ↔ s.AppliedRight ∧ s.ReportMet e := by
  have hquiet : ∀ s' : FaultSystem F, s'.applied = s.applied →
      (s'.AppliedRight ↔ s.AppliedRight) := by
    intro s' happlied
    rw [AppliedRight, AppliedRight, happlied]
  cases e with
  | report i hdr clock =>
    rw [ReportMet]
    rcases hp : s.reports[i]? with _ | p
    · rw [step, hp]
      exact ⟨fun h => ⟨h, nofun⟩, fun h => h.1⟩
    have hmem : p ∈ s.reports := List.mem_of_getElem? hp
    by_cases htakes : s.backend.takes p.conn p.dev = true
    · obtain ⟨-, -, -, ⟨hnone, -, happlied⟩ | ⟨r₀, hr₀, -, -, happlied⟩⟩ :=
        report_cases hp htakes hdr clock
      · rw [hquiet _ happlied]
        refine ⟨fun hs => ⟨hs, fun q hq _ r hr hrdev => ?_⟩, fun hs => hs.1⟩
        -- the device has no row at all
        cases hq
        have hnot := List.find?_eq_none.mp hnone r (List.mem_reverse.mpr hr)
        exact absurd (decide_eq_true hrdev) hnot
      · rw [appliedRight_append happlied, answers_newest_iff h hmem hr₀]
        refine and_congr_right fun _ => ⟨fun hmet q hq _ => ?_, fun hmet => hmet p rfl htakes⟩
        cases hq
        exact hmet
    · have hstep : s.step (.report i hdr clock) = s := by
        rw [step, hp]
        exact if_neg htakes
      rw [hstep]
      refine ⟨fun hs => ⟨hs, fun q hq hqtakes => ?_⟩, fun hs => hs.1⟩
      cases hq
      exact absurd hqtakes htakes
  | request dev body clock => exact (hquiet _ rfl).trans (iff_of_eq (and_true _)).symm
  | answer i flags =>
    have happlied : (s.step (.answer i flags)).applied = s.applied := by
      rw [step]
      split <;> rfl
    exact (hquiet _ happlied).trans (iff_of_eq (and_true _)).symm
  | unsolicited conn dev flags => exact (hquiet _ rfl).trans (iff_of_eq (and_true _)).symm
  | loseRequest i => exact (hquiet _ rfl).trans (iff_of_eq (and_true _)).symm
  | loseReport i => exact (hquiet _ rfl).trans (iff_of_eq (and_true _)).symm
  | other e =>
    have happlied : (s.step (.other e)).applied = s.applied := by
      rw [step]
      split <;> rfl
    exact (hquiet _ happlied).trans (iff_of_eq (and_true _)).symm

/-! ## Every run -/

/-- In a run, the acknowledgements are those of the requests exactly if each
    FAULT_ACK that is taken answers the newest request for its device. -/
theorem fault_acks_attributed_iff (events : List (FaultEvent F)) :
    (run events).Attributed ↔ AllSteps step ReportMet start events := by
  have hstart : (start (F := F)).AppliedRight := nofun
  rw [(inv_run events).attributed_iff, run,
    allSteps_iff inv_step appliedRight_step inv_start]
  exact and_iff_right hstart

def helloOn (c t : Nat) : FaultEvent ℚ :=
  .other (.frame c
    (frameOf "ECU-1" (.hello { fwString := "1.0.0", hwModel := "SIM-ECU-1",
                               telemetryHz := 10, configVersion := 1 }))
    (.stopped t))

/-- The device loses its connection; a request is answered with 409; the device is
    back, and says that clear_faults has left no flag. -/
def refused : List (FaultEvent ℚ) :=
  [helloOn 0 1, .other (.lost 0), .other (.ended 0),
   .request "ECU-1" { set := ["GPS_LOST"] } (.stopped 2), helloOn 1 3,
   .other (.deviceCmd "ECU-1" .clearFaults (.stopped 4)), .unsolicited 1 "ECU-1" 0,
   .report 0 (frameOf "ECU-1" (.faultAck ⟨0⟩)).header (.stopped 5)]

/-- The row shows an acknowledgement, and nothing was sent. -/
theorem refused_not_attributed :
    ¬ (run refused).Attributed ∧ (run refused).sent = [] ∧
      (run refused).backend.db.faultInjections.map FaultInjectionRow.ackFlags = [some 0] := by
  have hsent : (run refused).sent = [] := by decide +kernel
  have hacked : (run refused).backend.db.faultInjections.map FaultInjectionRow.ackFlags =
      [some 0] := by decide +kernel
  refine ⟨fun h => ?_, hsent, hacked⟩
  obtain ⟨r, hrows, hflags⟩ := List.map_eq_singleton_iff.mp hacked
  have hmem : r ∈ (run refused).backend.db.faultInjections := by
    rw [hrows]
    exact List.mem_cons_self
  have hnever := h.sent r hmem (by rw [hflags]; rfl)
  rw [hsent] at hnever
  cases hnever

end FaultSystem

end EcuTelemetry.System
