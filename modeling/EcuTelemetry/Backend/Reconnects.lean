/-
  EcuTelemetry.Backend.Reconnects

  `stats.reconnects` beside the number of registrations it stands for.
  `_register` infers from three pieces of state whether it has seen the device
  before: frames counted, a writer, and `last_seen`.  UDP telemetry writes two of
  them, so the first control channel of a device whose telemetry came first is
  counted as a reconnect; and a restart falls back to what was last saved.
-/

import EcuTelemetry.Backend.Registry
import EcuTelemetry.Backend.ExactFloat

namespace EcuTelemetry.Backend

open Proc Protocol

variable {F : Type}

/-! ## What is saved -/

/-- `reconnects` of the row that `load_stats` leaves for a device. -/
def Database.savedReconnects (db : Database F) (dev : String) : Nat :=
  ((db.deviceStats.reverse.find? (·.deviceId = dev)).map StatsRow.reconnects).getD 0

namespace Ingest

/-- The last row of a device counts. -/
theorem get?_load (rows : List (StatsRow F)) (stats : Dict String (DeviceStats F)) (dev : String) :
    Dict.get? (rows.foldl (fun d row => Dict.set d row.deviceId row.load) stats) dev =
      ((rows.reverse.find? (·.deviceId = dev)).map StatsRow.load).or (Dict.get? stats dev) := by
  induction rows generalizing stats with
  | nil => rfl
  | cons row rows ih =>
    rw [List.foldl_cons, ih, get?_set, List.reverse_cons, List.find?_append, List.find?_singleton]
    generalize rows.reverse.find? (fun x => decide (x.deviceId = dev)) = last
    cases last with
    | none =>
      by_cases hdev : dev = row.deviceId
      · rw [if_pos hdev, if_pos (decide_eq_true hdev.symm)]
        rfl
      · rw [if_neg hdev, if_neg fun h => hdev (of_decide_eq_true h).symm]
        rfl
    | some last => rfl

theorem reconnects_load (engine : Engine F) (dev : String) :
    ((load engine).record dev).reconnects = engine.db.savedReconnects dev := by
  rw [record, load, get?_load, Database.savedReconnects]
  generalize engine.db.deviceStats.reverse.find? (fun x => decide (x.deviceId = dev)) = last
  cases last <;> rfl

variable [PyFloat F] [PyText F]

theorem reconnects_restart (s : Ingest F) (dev : String) :
    ((restart s).2.record dev).reconnects = s.db.savedReconnects dev :=
  reconnects_load (Engine.restart s.engine).2 dev

/-! ## Registrations beside the run -/

/-- A run of the backend with the number of registrations of each device. -/
structure Tally (F : Type) where
  ingest : Ingest F
  registrations : String → Nat

namespace Tally

def start : Tally F := ⟨load (Engine.init {}), fun _ => 0⟩

def step (t : Tally F) (e : Event F) : Tally F :=
  { ingest := t.ingest.step e
    registrations := fun dev =>
      t.registrations dev + if t.ingest.registers e = some dev then 1 else 0 }

end Tally

/-- The registrations of a device in a run. -/
def registrations (events : List (Event F)) : String → Nat :=
  (exec Tally.step Tally.start events).registrations

/-- The tally goes along with the run. -/
theorem tally_ingest (events : List (Event F)) :
    (exec Tally.step Tally.start events).ingest = run events := by
  have h : ∀ (es : List (Event F)) (t : Tally F),
      (exec Tally.step t es).ingest = exec step t.ingest es := by
    intro es
    induction es with
    | nil => exact fun _ => rfl
    | cons e es ih => exact fun t => ih (t.step e)
  exact h events Tally.start

/-- `reconnects` is the number of registrations less the first. -/
def CountsRight (t : Tally F) : Prop :=
  ∀ dev, (t.ingest.record dev).reconnects = t.registrations dev - 1

/-- A registration finds a trace of the device exactly if it has registered before, and
    a restart finds the current counts saved. -/
structure TracesRight (t : Tally F) (e : Event F) : Prop where
  registration : ∀ dev, t.ingest.registers e = some dev →
    (t.ingest.Known dev ↔ t.registrations dev ≠ 0)
  restart : e = .restart →
    ∀ dev, t.ingest.db.savedReconnects dev = (t.ingest.record dev).reconnects

/-! ## One event -/

omit [PyFloat F] [PyText F] in
/-- The end of a handler counts nothing. -/
theorem Torn.reconnects {s s' : Ingest F} (h : Torn s s') (dev : String) :
    (s'.record dev).reconnects = (s.record dev).reconnects := by
  cases h with
  | not => rfl
  | down c =>
    rcases (endHandler_spec c s).registry with ⟨-, hsame⟩ | ⟨d, -, -, -, -, hrecord⟩
    · rw [hsame]
    · rw [hrecord]
      split
      · next hd => rw [hd]
      · rfl

/-- Only registrations count, but for a restart. -/
theorem step_reconnects (s : Ingest F) {e : Event F} (he : e ≠ .restart) (dev : String) :
    ((step s e).record dev).reconnects =
      (s.record dev).reconnects + if s.registers e = some dev ∧ s.Known dev then 1 else 0 := by
  have hstep := step_registry s e
  generalize step s e = s'' at hstep
  cases hstep with
  | work _ hrestart hnone hwork htorn =>
    rw [htorn.reconnects, (hwork.link dev).2, hnone, if_neg fun h => nomatch h.1]
    rfl
  | registered c f clock htakes hfirst hwork htorn =>
    have hreg : s.registers (.frame c f clock) = some f.deviceId := if_pos ⟨htakes, hfirst⟩
    rw [htorn.reconnects, (hwork.link dev).2, (registerFirst_spec hfirst).record, hreg]
    -- only the record of the device that registers is counted up
    by_cases hdev : dev = f.deviceId
    · subst hdev
      rw [if_pos rfl]
      show (if s.Known f.deviceId then (s.record f.deviceId).reconnects + 1 else _) = _
      by_cases hknown : s.Known f.deviceId
      · rw [if_pos hknown, if_pos (And.intro rfl hknown)]
      · rw [if_neg hknown, if_neg fun h => hknown h.2]
        rfl
    · rw [if_neg hdev, if_neg fun h => hdev (Option.some.inj h.1).symm]
      rfl
  | lost c => rfl
  | restarted => exact absurd rfl he

/-- The counts stay right exactly where the traces are. -/
theorem step_countsRight {t : Tally F} (ht : CountsRight t) (e : Event F) :
    CountsRight (t.step e) ↔ TracesRight t e := by
  by_cases he : e = .restart
  · subst he
    -- a restart takes the counts back from the table
    have hstep : CountsRight (t.step .restart) ↔
        ∀ dev, t.ingest.db.savedReconnects dev = (t.ingest.record dev).reconnects := by
      refine forall_congr' fun dev => ?_
      show ((restart t.ingest).2.record dev).reconnects = t.registrations dev + 0 - 1 ↔ _
      rw [reconnects_restart, ht dev, Nat.add_zero]
    rw [hstep]
    exact ⟨fun h => ⟨nofun, fun _ => h⟩, fun h => h.restart rfl⟩
  · -- one registration at most
    have hstep : CountsRight (t.step e) ↔ ∀ dev, t.ingest.registers e = some dev →
        (t.ingest.Known dev ↔ t.registrations dev ≠ 0) := by
      refine forall_congr' fun dev => ?_
      show ((step t.ingest e).record dev).reconnects =
        t.registrations dev + (if t.ingest.registers e = some dev then 1 else 0) - 1 ↔ _
      rw [step_reconnects t.ingest he, ht dev]
      by_cases hreg : t.ingest.registers e = some dev
      · by_cases hknown : t.ingest.Known dev
        · rw [if_pos ⟨hreg, hknown⟩, if_pos hreg, forall_prop_of_true hreg, iff_true_left hknown]
          omega
        · rw [if_neg fun h => hknown h.2, if_pos hreg, forall_prop_of_true hreg,
            iff_false_left hknown]
          omega
      · rw [if_neg fun h => hreg h.1, if_neg hreg]
        exact ⟨fun _ h => absurd h hreg, fun _ => rfl⟩
    rw [hstep]
    exact ⟨fun h => ⟨h, fun h => absurd h he⟩, fun h => h.registration⟩

/-! ## Every run -/

/-- In every state of a run `reconnects` of every device is the number of its
    registrations less the first, exactly if each registration of the run finds a
    trace of the device where it has registered before, and only there, and each
    restart finds the counts saved. -/
theorem reconnects_right_iff (events : List (Event F)) :
    (∀ before after, events = before ++ after → ∀ dev,
      ((run before).record dev).reconnects = registrations before dev - 1) ↔
    AllSteps Tally.step TracesRight Tally.start events := by
  have hstart : CountsRight (Tally.start : Tally F) := fun _ => rfl
  refine Iff.trans ?_ (@forall_prefix_iff _ _ Tally.step TracesRight Tally.start events CountsRight
    (fun t e ht => step_countsRight ht e) hstart)
  refine forall_congr' fun before => forall_congr' fun after => imp_congr_right fun _ => ?_
  rw [CountsRight, tally_ingest]
  rfl

/-- A sample, and the first frame of the control channel behind it. -/
def telemetryFirst : List (Event ℚ) :=
  [.datagram (frameOf "E" (.telemetry ⟨⟨0⟩, ⟨0⟩, ⟨0⟩, ⟨0⟩, ⟨0⟩, ⟨0⟩, ⟨0⟩, ⟨0⟩, 0, 1⟩)).raw
    (.stopped 100),
   .frame 0 (frameOf "E" (.hello ⟨"1.0.0", "SIM", 0, 10⟩)) (.stopped 101)]

set_option maxRecDepth 20000 in
/-- One registration, one reconnect. -/
theorem first_channel_counted : ¬ ∀ (events : List (Event ℚ)) (dev : String),
    ((run events).record dev).reconnects = registrations events dev - 1 := by
  intro h
  have hcount := h telemetryFirst "E"
  have hwrong : ((run telemetryFirst).record "E").reconnects ≠
      registrations telemetryFirst "E" - 1 := by
    decide +kernel
  exact hwrong hcount

end Ingest

end EcuTelemetry.Backend
