/-
  EcuTelemetry.Backend.AlertTable

  What the engine and the API do to the alerts table: `Appends` (alerts are
  appended, all of them open) and `Closes` (every alert stays where it is, with
  a status no earlier).  Each operation keeps `AlertsKeyed`: fresh and unique
  ids, and one unresolved alert for a (device, rule) at most; `AlertsOk` adds
  that no row has `rule = NULL`.
-/

import Mathlib.Data.List.Nodup
import EcuTelemetry.Backend.Database

namespace EcuTelemetry.Backend

variable {F : Type}

/-! ## The table -/

/-- `open -> acked -> resolved`. -/
def AlertStatus.rank : AlertStatus → Nat
  | opened => 0
  | acked => 1
  | resolved => 2

theorem AlertStatus.rank_le_resolved (s : AlertStatus) : s.rank ≤ resolved.rank := by
  cases s <;> decide

/-- What an update may do to a row. -/
structure AlertRow.Moves (a b : AlertRow F) : Prop where
  id : b.id = a.id
  deviceId : b.deviceId = a.deviceId
  rule : b.rule = a.rule
  status : a.status.rank ≤ b.status.rank

def AlertRow.live (dev : String) (rule : Option String) (a : AlertRow F) : Bool :=
  a.deviceId = dev ∧ a.rule = rule ∧ a.status.unresolved

namespace AlertRow.Moves

variable {a b c : AlertRow F}

theorem refl (a : AlertRow F) : a.Moves a := ⟨rfl, rfl, rfl, Nat.le_refl _⟩

theorem trans (h : a.Moves b) (h' : b.Moves c) : a.Moves c :=
  ⟨h'.id.trans h.id, h'.deviceId.trans h.deviceId, h'.rule.trans h.rule,
    Nat.le_trans h.status h'.status⟩

theorem unresolved (h : a.Moves b) (hb : b.status.unresolved) : a.status.unresolved := by
  have hrank := h.status
  revert hb hrank
  cases a.status <;> cases b.status <;> simp [AlertStatus.unresolved, AlertStatus.rank]

/-- A row that is unresolved after an update was so before. -/
theorem live (h : a.Moves b) {dev : String} {rule : Option String} (hb : b.live dev rule) :
    a.live dev rule := by
  simp only [AlertRow.live, decide_eq_true_eq] at hb ⊢
  obtain ⟨hdev, hrule, hstatus⟩ := hb
  exact ⟨h.deviceId ▸ hdev, h.rule ▸ hrule, h.unresolved hstatus⟩

end AlertRow.Moves

namespace Database

/-- The unresolved alerts of a (device, rule). -/
def liveCount (db : Database F) (dev : String) (rule : Option String) : Nat :=
  db.alerts.countP (·.live dev rule)

structure AlertsKeyed (db : Database F) : Prop where
  fresh : ∀ a ∈ db.alerts, a.id < db.nextAlertId
  ids : (db.alerts.map AlertRow.id).Nodup
  unique : ∀ dev r, db.liveCount dev (some r) ≤ 1

structure AlertsOk (db : Database F) : Prop extends AlertsKeyed db where
  named : ∀ a ∈ db.alerts, a.rule ≠ none

/-- Alerts are appended, all of them open. -/
def Appends (db db' : Database F) : Prop :=
  (∃ new, db'.alerts = db.alerts ++ new ∧ ∀ a ∈ new, a.status = .opened) ∧
    (db.AlertsKeyed → db'.AlertsKeyed)

/-- Every alert stays where it is; its status moves forward. -/
def Closes (db db' : Database F) : Prop :=
  List.Forall₂ AlertRow.Moves db.alerts db'.alerts ∧ (db.AlertsKeyed → db'.AlertsKeyed)

variable {db db' : Database F} {dev : String} {rule : Option String}

theorem openAlert_some_eq_none {r : String} :
    db.openAlert dev (some r) = none ↔ db.liveCount dev (some r) = 0 := by
  rw [openAlert, newest, List.find?_eq_none, liveCount, List.countP_eq_zero]
  simp only [List.mem_reverse]
  rfl

/-- The alert `open_alert` finds. -/
theorem openAlert_spec {a : AlertRow F} (h : db.openAlert dev rule = some a) :
    a ∈ db.alerts ∧ a.live dev rule := by
  cases rule with
  | none => cases h
  | some r => exact ⟨List.mem_reverse.mp (List.mem_of_find?_eq_some h), List.find?_some h⟩

theorem liveCount_of_openAlert (h : (db.openAlert dev rule).isSome) :
    1 ≤ db.liveCount dev rule := by
  obtain ⟨a, ha⟩ := Option.isSome_iff_exists.mp h
  obtain ⟨hmem, hlive⟩ := openAlert_spec ha
  exact List.countP_pos_iff.mpr ⟨a, hmem, hlive⟩

/-- No row has `rule = NULL`. -/
theorem AlertsOk.liveCount_none (h : db.AlertsOk) (dev : String) : db.liveCount dev none = 0 := by
  refine List.countP_eq_zero.mpr fun a ha hlive => h.named a ha ?_
  simp only [AlertRow.live, decide_eq_true_eq] at hlive
  exact hlive.2.1

/-- One unresolved alert for every rule at most. -/
theorem AlertsOk.liveCount_le_one (h : db.AlertsOk) (dev : String) (rule : Option String) :
    db.liveCount dev rule ≤ 1 := by
  cases rule with
  | none => rw [h.liveCount_none dev]; exact Nat.zero_le 1
  | some r => exact h.unique dev r

theorem alertsOk_empty : ({} : Database F).AlertsOk :=
  ⟨⟨nofun, List.nodup_nil, fun _ _ => Nat.zero_le _⟩, nofun⟩

theorem AlertsKeyed.of_alerts_eq (h : db.AlertsKeyed) (halerts : db'.alerts = db.alerts)
    (hnext : db'.nextAlertId = db.nextAlertId) : db'.AlertsKeyed := by
  refine ⟨?_, ?_, fun dev r => ?_⟩
  · rw [halerts, hnext]; exact h.fresh
  · rw [halerts]; exact h.ids
  · rw [liveCount, halerts]; exact h.unique dev r

theorem AlertsOk.of_alerts_eq (h : db.AlertsOk) (halerts : db'.alerts = db.alerts)
    (hnext : db'.nextAlertId = db.nextAlertId) : db'.AlertsOk :=
  ⟨h.toAlertsKeyed.of_alerts_eq halerts hnext, by rw [halerts]; exact h.named⟩

/-! ## Appending -/

theorem Appends.refl (db : Database F) : Appends db db :=
  ⟨⟨[], by rw [List.append_nil], fun _ ha => absurd ha List.not_mem_nil⟩, id⟩

theorem Appends.of_alerts_eq (h : db'.alerts = db.alerts)
    (hnext : db'.nextAlertId = db.nextAlertId) : Appends db db' :=
  ⟨⟨[], by rw [List.append_nil, h], fun _ ha => absurd ha List.not_mem_nil⟩,
    fun hok => hok.of_alerts_eq h hnext⟩

theorem Appends.trans {db'' : Database F} (h : Appends db db') (h' : Appends db' db'') :
    Appends db db'' := by
  obtain ⟨⟨new, hnew, hopen⟩, hok⟩ := h
  obtain ⟨⟨new', hnew', hopen'⟩, hok'⟩ := h'
  refine ⟨⟨new ++ new', by rw [hnew', hnew, List.append_assoc], fun a ha => ?_⟩, hok' ∘ hok⟩
  exact (List.mem_append.mp ha).elim (hopen a) (hopen' a)

theorem Appends.liveCount_le (h : Appends db db') (dev : String) (rule : Option String) :
    db.liveCount dev rule ≤ db'.liveCount dev rule := by
  obtain ⟨⟨new, hnew, -⟩, -⟩ := h
  rw [liveCount, liveCount, hnew, List.countP_append]
  exact Nat.le_add_right _ _

section Create

variable {metric : Option String} {value : Option F} {severity message : Option String} {now : F}

theorem createAlert_liveCount :
    1 ≤ (db.createAlert dev rule metric value severity message now).liveCount dev rule := by
  rw [liveCount, createAlert, List.countP_append, List.countP_singleton, if_pos]
  · exact Nat.le_add_left _ _
  · simp [AlertRow.live, AlertStatus.unresolved]

/-- `create_alert` where `open_alert` found nothing. -/
theorem AlertsKeyed.createAlert (hok : db.AlertsKeyed) (h : db.openAlert dev rule = none) :
    (db.createAlert dev rule metric value severity message now).AlertsKeyed := by
  refine ⟨?_, ?_, ?_⟩
  · intro a ha
    rcases List.mem_append.mp ha with ha | ha
    · exact Nat.lt_succ_of_lt (hok.fresh a ha)
    · rw [List.mem_singleton.mp ha]
      exact Nat.lt_succ_self _
  · rw [Database.createAlert, List.map_append, List.nodup_append]
    refine ⟨hok.ids, List.nodup_singleton _, ?_⟩
    -- the new id is above all others
    intro i hi j hj
    obtain ⟨a, ha, rfl⟩ := List.mem_map.mp hi
    have hlt := hok.fresh a ha
    have hj' : j = db.nextAlertId := by simpa using hj
    omega
  · intro dev' r
    have hold := hok.unique dev' r
    rw [liveCount, Database.createAlert, List.countP_append, List.countP_singleton]
    rw [liveCount] at hold
    split
    · next hlive =>
      simp only [AlertRow.live, decide_eq_true_eq] at hlive
      obtain ⟨rfl, rfl, -⟩ := hlive
      have hzero := openAlert_some_eq_none.mp h
      rw [liveCount] at hzero
      omega
    · omega

theorem Appends.createAlert (h : db.openAlert dev rule = none) :
    Appends db (db.createAlert dev rule metric value severity message now) :=
  ⟨⟨_, rfl, fun a ha => by rw [List.mem_singleton.mp ha]⟩, fun hok => hok.createAlert h⟩

/-- `create_alert` where `open_alert` has found nothing keeps one live row for each device and
    rule. -/
theorem AlertsOk.createAlert (hok : db.AlertsOk) (hnamed : rule ≠ none)
    (h : db.openAlert dev rule = none) :
    (db.createAlert dev rule metric value severity message now).AlertsOk := by
  refine ⟨hok.toAlertsKeyed.createAlert h, fun a ha => ?_⟩
  rcases List.mem_append.mp ha with ha | ha
  · exact hok.named a ha
  · rw [List.mem_singleton.mp ha]
    exact hnamed

end Create

/-! ## Updating -/

theorem Closes.refl (db : Database F) : Closes db db :=
  ⟨List.forall₂_same.mpr fun a _ => .refl a, id⟩

/-- Updates one after the other. -/
theorem Closes.trans {db'' : Database F} (h : Closes db db') (h' : Closes db' db'') :
    Closes db db'' := by
  refine ⟨?_, h'.2 ∘ h.2⟩
  have hmid : List.Forall₂ AlertRow.Moves db.alerts db'.alerts := h.1
  have hend : List.Forall₂ AlertRow.Moves db'.alerts db''.alerts := h'.1
  revert hmid hend
  generalize db.alerts = xs, db'.alerts = ys, db''.alerts = zs
  intro hmid
  induction hmid generalizing zs with
  | nil => intro hend; cases hend; exact .nil
  | cons hxy _ ih =>
    intro hend
    obtain ⟨z, zs, hyz, hrest, rfl⟩ := List.forall₂_cons_left_iff.mp hend
    exact .cons (hxy.trans hyz) (ih _ hrest)

/-- Every row after the update is one of before that has moved on. -/
theorem Closes.exists_moves (h : Closes db db') :
    ∀ a' ∈ db'.alerts, ∃ a ∈ db.alerts, a.Moves a' := by
  have hmoves := h.1
  revert hmoves
  generalize db.alerts = xs, db'.alerts = ys
  intro hmoves
  induction hmoves with
  | nil => exact fun _ h => absurd h List.not_mem_nil
  | @cons x y _ _ hxy _ ih =>
    intro a' ha'
    rcases List.mem_cons.mp ha' with rfl | ha'
    · exact ⟨x, List.mem_cons_self, hxy⟩
    · obtain ⟨a, ha, hmove⟩ := ih a' ha'
      exact ⟨a, List.mem_cons_of_mem _ ha, hmove⟩

/-- The rows keep their rules. -/
theorem Closes.alertsOk (h : Closes db db') (hok : db.AlertsOk) : db'.AlertsOk := by
  refine ⟨h.2 hok.toAlertsKeyed, fun a' ha' => ?_⟩
  obtain ⟨a, ha, hmove⟩ := h.exists_moves a' ha'
  rw [hmove.rule]
  exact hok.named a ha

/-- An update of rows that move forward. -/
theorem Closes.updateAlert {aid : Nat} {now : F} {fields : AlertRow F → AlertRow F}
    (h : ∀ a ∈ db.alerts, a.id = aid → a.Moves (fields a)) :
    Closes db (db.updateAlert aid now fields) := by
  -- each row moves on or stays, so ids stay and live rows become no more
  have hmoves : ∀ a ∈ db.alerts,
      a.Moves (if a.id = aid then { fields a with updatedAt := now } else a) := by
    intro a ha
    split
    · next hid =>
      have hm := h a ha hid
      exact ⟨hm.id, hm.deviceId, hm.rule, hm.status⟩
    · exact .refl a
  have hids : (db.updateAlert aid now fields).alerts.map AlertRow.id =
      db.alerts.map AlertRow.id := by
    rw [Database.updateAlert, List.map_map]
    exact List.map_congr_left fun a ha => (hmoves a ha).id
  refine ⟨?_, fun hok => ⟨?_, ?_, ?_⟩⟩
  · rw [Database.updateAlert, List.forall₂_map_right_iff]
    exact List.forall₂_same.mpr hmoves
  · intro b hb
    have hmem : b.id ∈ (db.updateAlert aid now fields).alerts.map AlertRow.id :=
      List.mem_map_of_mem hb
    rw [hids] at hmem
    obtain ⟨a, ha, hab⟩ := List.mem_map.mp hmem
    rw [← hab]
    exact hok.fresh a ha
  · rw [hids]
    exact hok.ids
  · intro dev' r
    refine Nat.le_trans ?_ (hok.unique dev' r)
    rw [liveCount, Database.updateAlert, List.countP_map]
    exact List.countP_mono_left fun a ha hlive => (hmoves a ha).live hlive

theorem AlertsKeyed.eq_of_id (hok : db.AlertsKeyed) {a b : AlertRow F} (ha : a ∈ db.alerts)
    (hb : b ∈ db.alerts) (h : a.id = b.id) : a = b :=
  List.inj_on_of_nodup_map hok.ids ha hb h

/-- There is one live row at most for a device and a rule. -/
theorem AlertsKeyed.eq_of_live (hok : db.AlertsKeyed) {r : String} {a b : AlertRow F}
    (ha : a ∈ db.alerts) (hb : b ∈ db.alerts) (hla : a.live dev (some r))
    (hlb : b.live dev (some r)) : a = b := by
  have hle := hok.unique dev r
  rw [liveCount, List.countP_eq_length_filter] at hle
  have hfa := List.mem_filter.mpr ⟨ha, hla⟩
  have hfb := List.mem_filter.mpr ⟨hb, hlb⟩
  revert hle hfa hfb
  generalize db.alerts.filter (·.live dev (some r)) = rows
  intro hle hfa hfb
  rcases rows with _ | ⟨x, _ | ⟨y, rest⟩⟩
  · exact absurd hfa List.not_mem_nil
  · rw [List.mem_singleton.mp hfa, List.mem_singleton.mp hfb]
  · exact absurd hle (by simp)

/-- The update `ack_alert` makes; an unknown id is a 404. -/
def ackAlert (db : Database F) (aid : Nat) (clock : F) : Database F :=
  match db.getAlert aid with
  | none => db
  | some a =>
    if a.status = .opened then
      db.updateAlert aid clock fun a => { a with status := .acked, ackedAt := some clock }
    else db

theorem ackAlert_rules (db : Database F) (aid : Nat) (clock : F) :
    (db.ackAlert aid clock).rules = db.rules := by
  rw [ackAlert]
  split
  · rfl
  · split <;> rfl

/-- With unique ids the row that is acknowledged is the one that was looked at. -/
theorem Closes.ackAlert (hok : db.AlertsKeyed) (aid : Nat) (clock : F) :
    Closes db (db.ackAlert aid clock) := by
  rw [Database.ackAlert]
  split
  · exact .refl db
  · next a ha =>
    split
    · next hopen =>
      refine .updateAlert fun b hb hid => ⟨rfl, rfl, rfl, ?_⟩
      have hmem := List.mem_of_find?_eq_some ha
      have haid : a.id = aid := by simpa using List.find?_some ha
      have hba : b = a := hok.eq_of_id hb hmem (hid.trans haid.symm)
      rw [hba, hopen]
      exact Nat.zero_le _
    · exact .refl db

end Database

end EcuTelemetry.Backend
