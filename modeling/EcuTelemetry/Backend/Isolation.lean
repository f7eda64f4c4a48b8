/-
  EcuTelemetry.Backend.Isolation

  Two runs: the whole fleet, and one device alone with the same ticks and
  restarts.  The alerts of the device are the same in both, as long as no tick
  is disturbed by the others (`apart`).

  A tick is disturbed by an entry in the memory of another device whose rule
  SQLite cannot bind, which ends it with an exception, and by so many newer
  alerts of the others that the sweep does not see one it would resolve: its
  list is cut at 1000 for all devices together.
-/

import EcuTelemetry.Backend.TickSweep

namespace EcuTelemetry.Backend

open Proc

variable {F : Type} [PyFloat F]

namespace Engine

/-! ## A device alone -/

/-- The engine has seen no other device. -/
structure Alone (dev : String) (t : Engine F) : Prop where
  memory : ∀ e ∈ t.devices, e.1 = dev
  alerts : ∀ a ∈ t.db.alerts, a.deviceId = dev

omit [PyFloat F] in
/-- The shares of the others stay empty. -/
theorem Alone.of_same {dev : String} {t t' : Engine F} (ht : t.Sound) (h : Alone dev t)
    (hsame : ∀ d, d ≠ dev → SameShare d t t') : t'.Sound ∧ Alone dev t' := by
  have hother : ∃ d, d ≠ dev := @exists_ne String ⟨"", "x", by decide⟩ dev
  obtain ⟨d, hd⟩ := hother
  have ht' := ((hsame d hd).2 ht).1
  refine ⟨ht', ⟨fun e he => ?_, fun a ha => ?_⟩⟩
  · by_contra hne
    have hshare := congrArg Share.memory ((hsame e.1 hne).2 ht).2
    have hget : Dict.get? t.devices e.1 = some e.2 :=
      hshare.symm.trans (Dict.get?_of_mem (.of_lawful e.1) ht'.distinct he)
    exact hne (h.memory _ (Dict.get?_mem (.of_lawful e.1) hget))
  · by_contra hne
    have hshare := congrArg (fun x : Share F => x.rows.alerts) ((hsame a.deviceId hne).2 ht).2
    have hmem : a ∈ t'.db.alerts.filter (·.deviceId = a.deviceId) :=
      List.mem_filter.mpr ⟨ha, decide_eq_true rfl⟩
    have hrows : t'.db.alerts.filter (·.deviceId = a.deviceId) =
        t.db.alerts.filter (·.deviceId = a.deviceId) := hshare
    rw [hrows] at hmem
    exact hne (h.alerts a (List.mem_filter.mp hmem).1)

/-- The pass over the memory, where there is only one device. -/
theorem alone_tickDevices {dev : String} {t : Engine F} (ht : t.Sound) (halone : Alone dev t)
    (now clock h : F) :
    let t' := (forEach t.devices (fun e => tickDevice now clock h e.1) t).2
    t'.Sound ∧ Alone dev t' := by
  refine halone.of_same ht fun d hd => ?_
  refine Keeps.forEach (fun e he => keeps_sameShare_tickDevice ?_ now clock h) t
  rw [halone.memory e he]
  exact hd

/-- The pass over the rows. -/
theorem alone_tickSweep {dev : String} {t : Engine F} (ht : t.Sound) (halone : Alone dev t)
    (now clock h : F) (n : Nat) :
    let t' := (forEach (t.db.openAlerts n) (tickSweep now clock h) t).2
    t'.Sound ∧ Alone dev t' := by
  refine halone.of_same ht fun d hd => ?_
  refine Keeps.forEach (fun a ha => keeps_sameShare_tickSweep ?_ now clock h) t
  have hmem := List.mem_reverse.mp (List.mem_filter.mp (List.mem_of_mem_take ha)).1
  rw [halone.alerts a hmem]
  exact hd

/-- A tick leaves the device alone. -/
theorem alone_tick {dev : String} {t : Engine F} (ht : t.Sound) (halone : Alone dev t)
    (now clock : F) : Alone dev (tick now clock t).2 := by
  rw [tick_eq, bind_run_ok (get_run t)]
  rcases t.hold with e | h
  · exact halone
  · rw [bind_run_ok (ofExcept_run (.ok h) t), bind_run]
    obtain ⟨ht', halone'⟩ := alone_tickDevices ht halone now clock h
    rcases hrun : forEach t.devices (fun e => tickDevice now clock h e.1) t with ⟨e | _, t'⟩
    · rw [hrun] at halone'
      exact halone'
    · rw [hrun] at ht' halone'
      exact (alone_tickSweep ht' halone' now clock h 1000).2

/-! ## A tick that others do not disturb -/

/-- Nothing of the other devices gets between the device and `tick`. -/
def apart (dev : String) (now : F) (s : Engine F) : Bool :=
  match s.hold with
  | .error _ => true
  | .ok h =>
    s.devices.all (fun e => e.1 == dev || e.2.active.all (resolvable now h)) &&
      (s.unresolved.drop 1000).all fun a => a.deviceId != dev || !s.exposed now h a

theorem apart_names {dev : String} {now h : F} {s : Engine F} (hapart : s.apart dev now = true)
    (hhold : s.hold = .ok h) :
    ∀ e ∈ s.devices, e.1 ≠ dev → ∀ x ∈ e.2.active, resolvable now h x = true := by
  rw [apart, hhold] at hapart
  simp only [Bool.and_eq_true, List.all_eq_true, Bool.or_eq_true, beq_iff_eq] at hapart
  intro e he hne
  exact (hapart.1 e he).resolve_left hne

/-- Rows beyond the cut of 1000 are not ones the tick would have resolved. -/
theorem apart_listed {dev : String} {now h : F} {s : Engine F} (hapart : s.apart dev now = true)
    (hhold : s.hold = .ok h) :
    ∀ a ∈ s.unresolved.drop 1000, a.deviceId = dev → s.exposed now h a = false := by
  rw [apart, hhold] at hapart
  simp only [Bool.and_eq_true, List.all_eq_true, Bool.or_eq_true, bne_iff_ne, Bool.not_eq_true']
    at hapart
  intro a ha hdev
  exact (hapart.2 a ha).resolve_left fun hne => hne hdev

omit [PyFloat F] in
/-- The unresolved rows of the device, without ids. -/
theorem recorded_unresolved (s : Engine F) (dev : String) :
    (s.unresolved.filter (·.deviceId = dev)).map AlertRow.anonymous =
      (s.recorded dev).reverse.filter (·.status.unresolved) := by
  rw [unresolved, recorded, ← List.map_reverse, ← List.filter_reverse, List.filter_map,
    List.filter_filter, List.filter_filter]
  refine congrArg (List.map AlertRow.anonymous) (List.filter_congr fun a _ => ?_)
  exact Bool.and_comm _ _

/-- Two lists that agree on what concerns the device, the second one with nothing else: what
    the cut leaves out of the second is left out of the first, too. -/
theorem sweepDue_take {dev : String} {d : DeviceState F} {now h : F} {U W : List (AlertRow F)}
    (n : Nat) (hW : ∀ a ∈ W, a.deviceId = dev)
    (hUW : (U.filter (·.deviceId = dev)).map AlertRow.anonymous = W.map AlertRow.anonymous)
    (hU : ∀ a ∈ U.drop n, a.deviceId = dev → due d now h a = false) :
    sweepDue dev d now h (U.take n) = sweepDue dev d now h (W.take n) := by
  -- the cut leaves out nothing that is due, on either side
  have hcut : ∀ rows : List (AlertRow F),
      (∀ a ∈ rows.drop n, a.deviceId = dev → due d now h a = false) →
      sweepDue dev d now h (rows.take n) = sweepDue dev d now h rows := by
    intro rows hrows
    have hnone : (rows.drop n).filter (fun a => a.deviceId = dev && due d now h a) = [] := by
      refine List.filter_eq_nil_iff.mpr fun a ha hboth => ?_
      rw [Bool.and_eq_true, decide_eq_true_eq] at hboth
      rw [hrows a ha hboth.1] at hboth
      cases hboth.2
    rw [sweepDue, sweepDue]
    conv_rhs => rw [← List.take_append_drop n rows]
    rw [List.filter_append, hnone, List.append_nil]
  -- a row beyond the cut in the second list is beyond it in the first
  have hWdrop : ∀ a ∈ W.drop n, a.deviceId = dev → due d now h a = false := by
    intro a ha _
    have hmem : a.anonymous ∈ ((U.filter (·.deviceId = dev)).drop n).map AlertRow.anonymous := by
      rw [List.map_drop, hUW, ← List.map_drop]
      exact List.mem_map_of_mem ha
    obtain ⟨b, hb, hab⟩ := List.mem_map.mp hmem
    have hsub : ((U.filter (·.deviceId = dev)).drop n).Sublist (U.drop n) :=
      List.filter_sublist.drop n
    have hdev : b.deviceId = dev :=
      of_decide_eq_true (List.mem_filter.mp (List.mem_of_mem_drop hb)).2
    have hdue : due d now h b.anonymous = false := hU b (hsub.subset hb) hdev
    rw [hab] at hdue
    exact hdue
  rw [hcut U hU, hcut W hWdrop]
  -- without ids the rows of the device are the same
  have hsplit : ∀ rows : List (AlertRow F), sweepDue dev d now h rows =
      ((rows.filter (·.deviceId = dev)).map AlertRow.anonymous).filter (due d now h) := by
    intro rows
    rw [sweepDue, List.filter_map, List.filter_filter]
    refine congrArg (List.map AlertRow.anonymous) (List.filter_congr fun a _ => ?_)
    exact Bool.and_comm _ _
  have hall : W.filter (·.deviceId = dev) = W :=
    List.filter_eq_self.mpr fun a ha => decide_eq_true (hW a ha)
  rw [hsplit, hsplit, hall, hUW]

/-- An undisturbed tick does to the device what it does to the device alone. -/
theorem tick_own {dev : String} {s t : Engine F} (hA : Agree dev s t) (halone : Alone dev t)
    {now : F} (clock : F) (hapart : s.apart dev now = true) :
    Agree dev (tick now clock s).2 (tick now clock t).2 := by
  have hboth : Matches (Agree dev) (tick now clock) (tick now clock) s t := by
    rw [tick_eq]
    refine .get_bind ?_
    have hhold : s.hold = t.hold := by rw [hold, hold, hA.rules]
    rw [← hhold]
    refine Matches.bind (m := ofExcept s.hold) ⟨rfl, hA⟩ fun h hok _ => ?_
    have hok : s.hold = .ok h := hok
    -- the first loop
    have hs := tickDevices_own now clock h hA (apart_names hapart hok)
    have ht := tickDevices_own now clock h (Agree.refl hA.sound') fun e he hne =>
      absurd (halone.memory e he) hne
    have hsettles : Settles s (forEach s.devices (fun e => tickDevice now clock h e.1) s).2 :=
      Keeps.forEach (fun e _ => settles_tickDevice now clock h e.1) s
    obtain ⟨-, halone'⟩ := alone_tickDevices hA.sound' halone now clock h
    refine Matches.bind ⟨hs.1.trans ht.1.symm, hs.2.trans ht.2.symm⟩ fun _ _ hA' => ?_
    change Agree dev (forEach s.devices _ s).2 (forEach t.devices _ t).2 at hA'
    change Matches _ _ _ (forEach s.devices _ s).2 (forEach t.devices _ t).2
    revert hA' hsettles halone'
    generalize (forEach s.devices (fun e => tickDevice now clock h e.1) s).2 = s'
    generalize (forEach t.devices (fun e => tickDevice now clock h e.1) t).2 = t'
    intro hsettles halone' hA'
    -- the sweep
    refine .get_bind ?_
    have hown := sweep_own now clock h hA' (s'.db.openAlerts 1000)
    have hrefl : Agree dev t' t' := .refl hA'.sound'
    have hown' := sweep_own now clock h hrefl (t'.db.openAlerts 1000)
    have hdue : sweepDue dev (s'.record dev) now h (s'.db.openAlerts 1000) =
        sweepDue dev (t'.record dev) now h (t'.db.openAlerts 1000) := by
      rw [← hA'.memory]
      refine sweepDue_take (U := s'.unresolved) (W := t'.unresolved) 1000 ?_ ?_ ?_
      · exact fun a ha => halone'.alerts a (List.mem_reverse.mp (List.mem_filter.mp ha).1)
      · have hall : t'.unresolved.filter (·.deviceId = dev) = t'.unresolved :=
          List.filter_eq_self.mpr fun a ha => decide_eq_true
            (halone'.alerts a (List.mem_reverse.mp (List.mem_filter.mp ha).1))
        rw [recorded_unresolved, hA'.alerts, ← recorded_unresolved, hall]
      · rintro a ha rfl
        obtain ⟨-, hsub, -⟩ := hsettles hA.sound
        have hmem := (hsub.drop 1000).subset ha
        have hfalse := apart_listed hapart hok a hmem rfl
        refine Bool.eq_false_iff.mpr fun htrue => ?_
        have hexposed := hsettles.exposed hA.sound (List.mem_of_mem_drop ha) htrue
        rw [hfalse] at hexposed
        cases hexposed
    rw [← hdue] at hown'
    exact ⟨hown.1.trans hown'.1.symm, hown.2.trans hown'.2.symm⟩
  exact hboth.2

end Engine

/-! ## Runs -/

/-- The device an event comes from, where it comes from one. -/
def EngineEvent.source : EngineEvent F → Option String
  | .telemetry dev .. => some dev
  | .comm dev .. => some dev
  | .offline dev .. => some dev
  | .online dev .. => some dev
  | _ => none

/-- Telemetry, offline and online events, ticks and restarts. -/
def EngineEvent.ofFleet : EngineEvent F → Bool
  | .telemetry .. => true
  | .comm .. => true
  | .offline .. => true
  | .online .. => true
  | .tick .. => true
  | .restart => true
  | _ => false

/-- An event of the device, a tick or a restart. -/
def EngineEvent.concerns (dev : String) (e : EngineEvent F) : Bool := e.source.all (· == dev)

namespace Engine

/-- The event is no tick that the others disturb. -/
def undisturbed (dev : String) (s : Engine F) : EngineEvent F → Bool
  | .tick now _ => s.apart dev now
  | _ => true

/-- A process with the given tables and no alerts yet. -/
def fresh (db : Database F) : Engine F := init { db with alerts := [], nextAlertId := 1 }

/-- What the two runs have in common. -/
def Isolated (dev : String) (s t : Engine F) : Prop := Agree dev s t ∧ Alone dev t

theorem isolated_fresh (db : Database F) (dev : String) : Isolated dev (fresh db) (fresh db) := by
  have hkeyed : ({ db with alerts := [], nextAlertId := 1 } : Database F).AlertsKeyed :=
    Database.alertsOk_empty.toAlertsKeyed.of_alerts_eq rfl rfl
  exact ⟨.refl ⟨hkeyed, List.nodup_nil⟩, nofun, nofun⟩

variable [PyText F]

/-- What a device does is its own. -/
theorem keeps_sameShare_handle {dev other : String} (hne : dev ≠ other) {e : EngineEvent F}
    (he : e.source = some other) : Keeps (SameShare dev) (handle e) := by
  have hnew : Keeps (SameShare (F := F) dev) newSample :=
    Keeps.modify fun _ => ⟨rfl, fun hs => ⟨⟨hs.alerts, hs.distinct⟩, rfl⟩⟩
  cases e with
  | telemetry d t now clock loss =>
    cases he
    intro s
    refine rel_bind (hnew s) fun _ s' _ => ?_
    exact (sampleFrame_sameShare hne now clock).onTelemetry t loss s' (namesOk_true _)
  | comm d loss now clock =>
    cases he
    exact hnew.bind fun _ => ((sampleFrame_sameShare hne now clock).onComm loss).bind fun _ =>
      Keeps.pure _
  | offline d now clock =>
    cases he
    exact hnew.bind fun _ => (keeps_onOffline (sampleFrame_sameShare hne now clock)).bind fun _ =>
      Keeps.pure _
  | online d now clock =>
    cases he
    refine Keeps.bind ?_ fun _ => Keeps.pure _
    exact Keeps.get.bind fun _ => Keeps.ite (fun _ => keeps_sameShare_resolve hne _ _ _)
      fun _ => Keeps.pure _
  | _ => cases he

/-- An event of the device does the same on both sides. -/
theorem respects_handle {dev : String} {e : EngineEvent F} (he : e.source = some dev) :
    Respects (Agree dev) (handle e) := by
  cases e with
  | telemetry d t now clock loss =>
    cases he
    exact respects_newSample.bind fun _ => respects_onTelemetry t now clock loss
  | comm d loss now clock =>
    cases he
    exact respects_newSample.bind fun _ => (respects_onComm loss now clock).bind fun _ => .pure _
  | offline d now clock =>
    cases he
    exact respects_newSample.bind fun _ => (respects_onOffline now clock).bind fun _ => .pure _
  | online d now clock =>
    cases he
    exact (respects_onOnline now clock).bind fun _ => .pure _
  | _ => cases he

/-- A new process keeps what the database says. -/
theorem isolated_restart {dev : String} {s t : Engine F} (h : Isolated dev s t) :
    Isolated dev (step s .restart) (step t .restart) := by
  obtain ⟨hA, halone⟩ := h
  refine ⟨?_, nofun, halone.alerts⟩
  have hrules : mergeRules (s.db.rules.getD []) = mergeRules (t.db.rules.getD []) := by
    rw [hA.stored]
  exact ⟨⟨hA.sound.alerts, List.nodup_nil⟩, ⟨hA.sound'.alerts, List.nodup_nil⟩, hrules, hA.stored,
    rfl, rfl, rfl, hA.device, hA.configs, hA.alerts⟩

/-- One event, with and without the other devices. -/
theorem step_isolated {dev : String} {s t : Engine F} {e : EngineEvent F} (h : Isolated dev s t)
    (hfleet : e.ofFleet = true) (hapart : s.undisturbed dev e = true) :
    Isolated dev (step s e) (if e.concerns dev then step t e else t) := by
  obtain ⟨hA, halone⟩ := h
  -- events of no device reach both, those of one only its own run
  rcases hsource : e.source with _ | other
  · have hconcerns : e.concerns dev = true := by rw [EngineEvent.concerns, hsource]; rfl
    rw [if_pos hconcerns]
    cases e with
    | tick now clock =>
      have hend : ∀ u : Engine F, step u (.tick now clock) = (tick now clock u).2 := fun u => by
        rw [step, handle]
        exact bind_pure_state _ _ _
      rw [hend, hend]
      exact ⟨tick_own hA halone clock hapart, alone_tick hA.sound' halone now clock⟩
    | restart => exact isolated_restart ⟨hA, halone⟩
    | telemetry | comm | offline | online => cases hsource
    | _ => cases hfleet
  -- an event of another device leaves this one's share alone
  · by_cases hdev : other = dev
    · subst hdev
      have hconcerns : e.concerns other = true := by
        rw [EngineEvent.concerns, hsource]
        exact beq_self_eq_true other
      rw [if_pos hconcerns]
      refine ⟨(respects_handle hsource s t hA).2, ?_⟩
      exact (halone.of_same hA.sound' fun d hd => keeps_sameShare_handle hd hsource t).2
    · have hconcerns : ¬ e.concerns dev = true := by
        rw [EngineEvent.concerns, hsource]
        exact fun h => hdev (beq_iff_eq.mp h)
      rw [if_neg hconcerns]
      have hsame := keeps_sameShare_handle (Ne.symm hdev) hsource s
      exact ⟨(Agree.of_same hA.sound hsame).symm.trans hA, halone⟩

/-- Over a run: the device goes through its own events as if there were no others. -/
theorem run_isolated {dev : String} {s t : Engine F} {events : List (EngineEvent F)}
    (h : Isolated dev s t) (hfleet : ∀ e ∈ events, e.ofFleet = true)
    (hapart : AllSteps step (fun s e => s.undisturbed dev e = true) s events) :
    Isolated dev (exec step s events) (exec step t (events.filter (·.concerns dev))) := by
  induction events generalizing s t with
  | nil => exact h
  | cons e events ih =>
    obtain ⟨he, hfleet⟩ := List.forall_mem_cons.mp hfleet
    have hstep := step_isolated h he hapart.1
    have hrun := ih hstep hfleet hapart.2
    rw [List.filter_cons, exec_cons]
    split at hrun
    · next hconcerns => rw [if_pos hconcerns]; exact hrun
    · next hconcerns => rw [if_neg hconcerns]; exact hrun

/-- What the alerts table says about a device, with the fleet and without it. -/
theorem recorded_alone (db : Database F) (dev : String) {events : List (EngineEvent F)}
    (hfleet : ∀ e ∈ events, e.ofFleet = true)
    (hapart : AllSteps step (fun s e => s.undisturbed dev e = true) (fresh db) events) :
    (exec step (fresh db) events).recorded dev =
      (exec step (fresh db) (events.filter (·.concerns dev))).recorded dev :=
  (run_isolated (isolated_fresh db dev) hfleet hapart).1.alerts

/-! ## The list of the sweep is cut -/

section Crowd

/-- The `offline` rule is the default one. -/
def OfflineDefault (s : Engine F) : Prop :=
  Dict.get? s.rules "offline" = some (.obj [("enabled", .bool true), ("severity", .str "critical")])

omit [PyText F] in
theorem openIfNone_opens {dev : String} {rule : Option String} {s : Engine F}
    (hnone : s.db.openAlert dev rule = none) (metric : Option String) (value : Option F)
    (sev msg : String) (clock : F) :
    openIfNone dev rule metric value (.str sev) (.str msg) clock s =
      (.ok (), { s with db := s.db.createAlert dev rule metric value sev msg clock }) := by
  rw [openIfNone, bind_run_ok (get_run s), if_pos (Option.isNone_iff_eq_none.mpr hnone)]
  rfl

omit [PyText F] in
/-- A device goes offline for the first time. -/
theorem onOffline_opens {s : Engine F} {dev : String} (now clock : F) (hrule : OfflineDefault s)
    (hnone : s.db.openAlert dev (some "offline") = none) :
    ∃ s', onOffline dev now clock s = (.ok (), s') ∧ s'.rules = s.rules ∧
      s'.db = s.db.createAlert dev (some "offline") none none (some "critical")
        (some "no HEARTBEAT/TELEMETRY for 15 s") clock := by
  have hmark : onOffline dev now clock s = mark dev (.str "offline") true now none none
      (.str "critical") (.str "no HEARTBEAT/TELEMETRY for 15 s") clock s := by
    rw [onOffline, bind_run_ok (get_run s), hrule]
    rfl
  -- after the record and the history: the `active` map and the row
  have htail : ∀ s₁ : Engine F, s₁.db = s.db → s₁.rules = s.rules →
      ∃ s', (modifySt dev (fun d => { d with active := Dict.set d.active (.str "offline") now }) >>=
          fun _ => openIfNone dev (some "offline") none none (.str "critical")
            (.str "no HEARTBEAT/TELEMETRY for 15 s") clock) s₁ = (.ok (), s') ∧
        s'.rules = s.rules ∧ s'.db = s.db.createAlert dev (some "offline") none none
          (some "critical") (some "no HEARTBEAT/TELEMETRY for 15 s") clock := by
    intro s₁ hdb hrules
    obtain ⟨D, hmodify, -⟩ :=
      modifySt_run dev (fun d => { d with active := Dict.set d.active (.str "offline") now }) s₁
    rw [bind_run_ok hmodify, openIfNone_opens (s := { s₁ with devices := D })
      ((congrArg (·.openAlert dev (some "offline")) hdb).trans hnone)]
    refine ⟨_, rfl, hrules, ?_⟩
    rw [← hdb]
  obtain ⟨D, hst, -⟩ := st_run dev s
  rw [hmark, mark, bind_run_ok hst]
  exact htail _ rfl rfl

/-- Many devices go offline. -/
def offlines (names : List String) (now : F) : List (EngineEvent F) :=
  names.map fun dev => .offline dev now now

/-- Each has its alert. -/
theorem exec_offlines {names : List String} (hnodup : names.Nodup) (now : F) {s : Engine F}
    (hrule : OfflineDefault s)
    (hnone : ∀ dev ∈ names, s.db.openAlert dev (some "offline") = none) :
    ∃ rows : List (AlertRow F), rows.length = names.length ∧
      (∀ a ∈ rows, a.rule = some "offline" ∧ a.status = .opened) ∧
      (exec step s (offlines names now)).db.alerts = s.db.alerts ++ rows ∧
      (exec step s (offlines names now)).db.rules = s.db.rules := by
  induction names generalizing s with
  | nil => exact ⟨[], rfl, nofun, (List.append_nil _).symm, rfl⟩
  | cons dev names ih =>
    obtain ⟨hdev, hnodup⟩ := List.nodup_cons.mp hnodup
    obtain ⟨hfirst, hnone⟩ := List.forall_mem_cons.mp hnone
    obtain ⟨s', hrun, hrules, hdb⟩ := onOffline_opens (s := (newSample s).2) now now hrule hfirst
    -- the first name gets its row
    have hstep : step s (.offline dev now now) = s' := by
      rw [step, handle, newSample, modify_bind_run]
      exact congrArg Prod.snd (bind_run_ok hrun)
    -- which opens nothing for the other names
    have hnone' : ∀ d ∈ names, s'.db.openAlert d (some "offline") = none := by
      intro d hd
      have hne : dev ≠ d := fun heq => hdev (heq ▸ hd)
      have hold := Database.openAlert_some_eq_none.mp (hnone d hd)
      rw [hdb, Database.openAlert_some_eq_none, Database.liveCount, Database.createAlert]
      dsimp only
      rw [List.countP_append, List.countP_singleton, if_neg]
      · exact hold
      · simp [AlertRow.live, hne]
    obtain ⟨rows, hlen, hrows, halerts, hstored⟩ :=
      ih hnodup (by rw [OfflineDefault, hrules]; exact hrule) hnone'
    rw [hdb] at halerts hstored
    rw [offlines, List.map_cons, exec_cons, hstep]
    refine ⟨_ :: rows, congrArg (· + 1) hlen, ?_, halerts.trans (List.append_assoc _ _ _), hstored⟩
    exact List.forall_mem_cons.mpr ⟨⟨rfl, rfl⟩, hrows⟩

omit [PyText F] in
/-- The sweep passes over `offline` alerts. -/
theorem sweep_offline {rows : List (AlertRow F)} (hrows : ∀ a ∈ rows, a.rule = some "offline")
    (now clock h : F) (s : Engine F) : forEach rows (tickSweep now clock h) s = (.ok (), s) := by
  induction rows with
  | nil => rfl
  | cons a rows ih =>
    obtain ⟨ha, hrows⟩ := List.forall_mem_cons.mp hrows
    have hskip : tickSweep now clock h a s = (.ok (), s) := by
      rw [tickSweep, bind_run_ok (get_run s), if_pos ha]
      rfl
    rw [forEach, bind_run_ok hskip]
    exact ih hrows

/-- After a restart, a thousand newer `offline` alerts leave the sweep nothing else. -/
theorem tick_crowded {s : Engine F} {old rows : List (AlertRow F)} (hmemory : s.devices = [])
    (halerts : s.db.alerts = old ++ rows) (hlen : rows.length = 1000)
    (hrows : ∀ a ∈ rows, a.rule = some "offline" ∧ a.status = .opened) (now clock : F) :
    step s (.tick now clock) = s := by
  -- the newest thousand rows are those of the crowd
  have hlist : s.db.openAlerts 1000 = rows.reverse := by
    have hopen : rows.reverse.filter (·.status.unresolved) = rows.reverse :=
      List.filter_eq_self.mpr fun a ha => by rw [(hrows a (List.mem_reverse.mp ha)).2]; rfl
    rw [Database.openAlerts, halerts, List.reverse_append, List.filter_append, hopen,
      List.take_append_of_le_length (by rw [List.length_reverse, hlen]),
      List.take_of_length_le (by rw [List.length_reverse, hlen])]
  -- and none of them is resolved by the sweep
  have hsweep : ∀ h, forEach (s.db.openAlerts 1000) (tickSweep now clock h) s = (.ok (), s) := by
    intro h
    rw [hlist]
    exact sweep_offline (fun a ha => (hrows a (List.mem_reverse.mp ha)).1) now clock h s
  have hend : step s (.tick now clock) = (tick now clock s).2 := by
    rw [step, handle]
    exact bind_pure_state _ _ _
  rw [hend, tick_eq, bind_run_ok (get_run s)]
  rcases s.hold with e | h
  · rfl
  · rw [bind_run_ok (ofExcept_run (.ok h) s), hmemory, forEach, bind_run_ok (pure_run () s),
      bind_run_ok (get_run s), hsweep]

end Crowd

/-! ## Runs with default rules -/

/-- A sample of which half the frames before it were lost. -/
def lossySample (dev : String) (now : ℚ) : EngineEvent ℚ := .telemetry dev [] now now (some 50)

/-- Two devices, one of which goes offline and comes back. -/
def twoDevices : List (EngineEvent ℚ) :=
  [lossySample "ECU-1" 1, lossySample "ECU-2" 2, .offline "ECU-2" 3 3, .online "ECU-2" 4 4,
   .tick 12 12]

/-- The alert of the first is resolved by the tick, as it is without the second. -/
theorem twoDevices_recorded :
    (exec step (fresh {}) twoDevices).recorded "ECU-1" =
      (exec step (fresh {}) (twoDevices.filter (·.concerns "ECU-1"))).recorded "ECU-1" :=
  recorded_alone {} "ECU-1" (by decide) (by decide +kernel)

theorem lossySample_opens : ∃ a ∈ (step (fresh {}) (lossySample "ECU-1" 1)).db.alerts,
    a.deviceId = "ECU-1" ∧ a.status = .opened := by
  decide +kernel

theorem lossySample_rules : OfflineDefault (step (fresh {}) (lossySample "ECU-1" 1)) := by
  have hsame := ((sampleFrame_appends (F := ℚ) "ECU-1" 1 1).onTelemetry [] (some 50)
    (newSample (fresh {})).2 (namesOk_true _)).2.1
  rw [OfflineDefault]
  exact (congrArg (Dict.get? · "offline") hsame).trans rfl

/-- The first device has an alert, all others go offline, and the process restarts. -/
def crowdedRun (names : List String) : List (EngineEvent ℚ) :=
  lossySample "ECU-1" 1 :: (offlines names 2 ++ [.restart, .tick 12 12])

/-- With a thousand others the last tick does nothing. -/
theorem crowdedRun_alerts {names : List String} (hnodup : names.Nodup)
    (hlen : names.length = 1000) : ∃ rows : List (AlertRow ℚ),
    (exec step (fresh {}) (crowdedRun names)).db.alerts =
      (step (fresh {}) (lossySample "ECU-1" 1)).db.alerts ++ rows := by
  have hnone : ∀ dev ∈ names,
      (step (fresh {}) (lossySample "ECU-1" 1)).db.openAlert dev (some "offline") = none := by
    have hother : ∀ a ∈ (step (fresh {}) (lossySample "ECU-1" 1)).db.alerts,
        a.rule ≠ some "offline" := by decide +kernel
    intro dev _
    rw [Database.openAlert_some_eq_none, Database.liveCount, List.countP_eq_zero]
    intro a ha hlive
    rw [AlertRow.live, decide_eq_true_eq] at hlive
    exact hother a ha hlive.2.1
  obtain ⟨rows, hrowsLen, hrows, halerts, -⟩ := exec_offlines hnodup 2 lossySample_rules hnone
  refine ⟨rows, ?_⟩
  rw [crowdedRun, exec_cons, exec_append, exec_cons, exec_cons, exec_nil, ← halerts]
  generalize exec step (step (fresh {}) (lossySample "ECU-1" 1)) (offlines names 2) = s at halerts ⊢
  rw [tick_crowded (s := step s .restart) rfl halerts (hrowsLen.trans hlen) hrows]
  rfl

/-- What concerns the device in the run. -/
theorem crowdedRun_alone {names : List String} (hne : ∀ dev ∈ names, dev ≠ "ECU-1") :
    (crowdedRun names).filter (·.concerns "ECU-1") =
      [lossySample "ECU-1" 1, .restart, .tick 12 12] := by
  have hnone : (offlines names (2 : ℚ)).filter (·.concerns "ECU-1") = [] := by
    refine List.filter_eq_nil_iff.mpr fun e he hconcerns => ?_
    obtain ⟨dev, hdev, rfl⟩ := List.mem_map.mp he
    exact hne dev hdev (beq_iff_eq.mp hconcerns)
  rw [crowdedRun, List.filter_cons_of_pos (by decide), List.filter_append, hnone, List.nil_append]
  rfl

/-- A thousand names. -/
def crowd : List String := (List.range 1000).map fun k => String.ofList (List.replicate (k + 1) 'x')

theorem crowd_nodup : crowd.Nodup := by
  refine List.Nodup.map (fun m n hmn => ?_) List.nodup_range
  have hlen := congrArg List.length (String.ofList_injective hmn)
  rw [List.length_replicate, List.length_replicate] at hlen
  omega

theorem crowd_length : crowd.length = 1000 := by
  rw [crowd, List.length_map, List.length_range]

/-- The crowd is of other devices. -/
theorem crowd_ne {dev : String} (h : dev ∈ crowd) : dev ≠ "ECU-1" := by
  obtain ⟨k, -, rfl⟩ := List.mem_map.mp h
  intro heq
  have hmem : 'E' ∈ (String.ofList (List.replicate (k + 1) 'x')).toList := by
    rw [heq]
    decide
  rw [String.toList_ofList] at hmem
  have := List.eq_of_mem_replicate hmem
  revert this
  decide

/-- The tick resolves the alert of the device alone, and not where a thousand
    others have gone offline after it. -/
theorem crowd_hides_alert :
    (∀ e ∈ crowdedRun crowd, e.ofFleet = true) ∧
      (exec step (fresh {}) (crowdedRun crowd)).recorded "ECU-1" ≠
        (exec step (fresh {}) ((crowdedRun crowd).filter (·.concerns "ECU-1"))).recorded
          "ECU-1" := by
  constructor
  · refine List.forall_mem_cons.mpr ⟨rfl, fun e he => ?_⟩
    rcases List.mem_append.mp he with he | he
    · obtain ⟨dev, -, rfl⟩ := List.mem_map.mp he
      rfl
    · rcases List.mem_pair.mp he with rfl | rfl <;> rfl
  · -- alone, the alert is resolved
    have halone : ∀ a ∈ (exec step (fresh {}) ((crowdedRun crowd).filter
        (·.concerns "ECU-1"))).recorded "ECU-1", a.status = .resolved := by
      rw [crowdedRun_alone fun _ => crowd_ne]
      decide +kernel
    -- with the others, it is what it was
    intro heq
    rw [← heq] at halone
    obtain ⟨a, ha, hdev, hstatus⟩ := lossySample_opens
    have hmem : a.anonymous ∈ (exec step (fresh {}) (crowdedRun crowd)).recorded "ECU-1" := by
      obtain ⟨rows, halerts⟩ := crowdedRun_alerts crowd_nodup crowd_length
      rw [recorded, halerts]
      exact List.mem_map_of_mem
        (List.mem_filter.mpr ⟨List.mem_append_left _ ha, decide_eq_true hdev⟩)
    have hresolved : a.status = .resolved := halone a.anonymous hmem
    rw [hstatus] at hresolved
    cases hresolved

end Engine

end EcuTelemetry.Backend
