/-
  EcuTelemetry.Backend.DeviceRecord

  The record of a device in `Ingest.stats`.  `st` makes one on demand, so a
  device without an entry has the default record: reading a record changes none.
  `SameStat φ` says that what `φ` reads of a record stays the same for every
  device.
-/

import EcuTelemetry.Backend.IngestFrame

namespace EcuTelemetry.Backend.Ingest

open Proc

variable {F : Type}

/-- The record that `st` returns. -/
def record (s : Ingest F) (dev : String) : DeviceStats F := (Dict.get? s.stats dev).getD {}

/-! ## `st` -/

theorem record_of_stats_eq {s s' : Ingest F} (h : s'.stats = s.stats) (d : String) :
    s'.record d = s.record d := by
  rw [record, record, h]

theorem get?_set (stats : Dict String (DeviceStats F)) (dev d : String) (r : DeviceStats F) :
    Dict.get? (Dict.set stats dev r) d = if d = dev then some r else Dict.get? stats d := by
  by_cases hd : d = dev
  · subst hd
    rw [if_pos rfl, Dict.get?_set_self (.of_lawful d)]
  · rw [if_neg hd, Dict.get?_set_ne (.of_lawful dev) (.of_lawful d) (Ne.symm hd)]

/-- `st` returns the record and changes none. -/
theorem st_run (dev : String) (s : Ingest F) : ∃ stats,
    st dev s = (.ok (s.record dev), { s with stats := stats }) ∧
      ∀ d, (Dict.get? stats d).getD {} = s.record d := by
  rw [st, record]
  rcases hget : Dict.get? s.stats dev with _ | r
  · refine ⟨Dict.set s.stats dev {}, rfl, fun d => ?_⟩
    rw [get?_set]
    by_cases hd : d = dev
    · rw [if_pos hd, record, hd, hget]
      rfl
    · rw [if_neg hd]
      rfl
  · exact ⟨s.stats, rfl, fun d => rfl⟩

/-- A change of one record. -/
theorem modifySt_run (dev : String) (f : DeviceStats F → DeviceStats F) (s : Ingest F) : ∃ stats,
    modifySt dev f s = (.ok (), { s with stats := stats }) ∧
      ∀ d, (Dict.get? stats d).getD {} = if d = dev then f (s.record dev) else s.record d := by
  obtain ⟨stats, hrun, hrecord⟩ := st_run dev s
  refine ⟨Dict.set stats dev (f (s.record dev)), ?_, fun d => ?_⟩
  · rw [modifySt, bind_run_ok hrun, modify_run]
  · rw [get?_set]
    split
    · rfl
    · exact hrecord d

/-! ## What stays of every record -/

/-- `φ` reads the same of every record. -/
def SameStat {α : Type} (φ : DeviceStats F → α) (s s' : Ingest F) : Prop :=
  ∀ dev, φ (s'.record dev) = φ (s.record dev)

instance {α : Type} (φ : DeviceStats F → α) : IsPreorder (Ingest F) (SameStat φ) where
  refl _ _ := rfl
  trans _ _ _ h h' dev := (h' dev).trans (h dev)

section SameStat

variable {α : Type} {φ : DeviceStats F → α}

theorem SameStat.of_stats_eq {s s' : Ingest F} (h : s'.stats = s.stats) : SameStat φ s s' :=
  fun dev => congrArg φ (record_of_stats_eq h dev)

theorem keeps_sameStat_st (dev : String) : Keeps (SameStat φ) (st dev) := by
  intro s d
  obtain ⟨stats, hrun, hrecord⟩ := st_run dev s
  rw [hrun]
  exact congrArg φ (hrecord d)

/-- A write that leaves the value leaves it for all devices. -/
theorem keeps_sameStat_modifySt (dev : String) {f : DeviceStats F → DeviceStats F}
    (hf : ∀ r, φ (f r) = φ r) : Keeps (SameStat φ) (modifySt dev f) := by
  intro s d
  obtain ⟨stats, hrun, hrecord⟩ := modifySt_run dev f s
  rw [hrun]
  refine (congrArg φ (hrecord d)).trans ?_
  split
  · next hd =>
    rw [hf, hd]
  · rfl

variable [PyFloat F] [PyText F]

/-- The engine and the database are elsewhere. -/
theorem keeps_sameStat_engineDo (e : EngineEvent F) : Keeps (SameStat φ) (engineDo e) := by
  refine Keeps.bind (fun s => ?_) fun _ => Keeps.pure ()
  exact SameStat.of_stats_eq rfl

theorem keeps_sameStat_modifyDb (f : Database F → Database F) : Keeps (SameStat φ) (modifyDb f) :=
  Keeps.get.bind fun s => keeps_sameStat_engineDo (.write (f s.db))

/-- `_seen` writes `last_seen` and `online`. -/
theorem keeps_sameStat_seen (hseen : ∀ r t, φ { r with lastSeen := t } = φ r)
    (honline : ∀ r b, φ { r with online := b } = φ r) (dev : String) (clock : Clock F) :
    Keeps (SameStat φ) (seen dev clock) := by
  refine (keeps_sameStat_modifySt dev fun r => hseen r _).bind fun _ =>
    (keeps_sameStat_st dev).bind fun r => Keeps.ite (fun _ => Keeps.pure ()) fun _ => ?_
  refine (keeps_sameStat_modifySt dev fun r => honline r _).bind fun _ =>
    (keeps_sameStat_modifyDb _).bind fun _ => ?_
  exact Keeps.ite (fun _ => keeps_sameStat_engineDo _) fun _ => keeps_sameStat_engineDo _

end SameStat

end EcuTelemetry.Backend.Ingest
