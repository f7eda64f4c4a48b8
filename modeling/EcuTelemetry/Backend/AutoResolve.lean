/-
  EcuTelemetry.Backend.AutoResolve

  When `tick` resolves an alert: was the rule's condition clear for the hold
  time, and seen to be so?

  `tick` goes by the last time the condition was observed true, and after a
  restart by the time the alert's row was written.  Both are right in a run
  where no device falls silent on a true sample, and where a restart does not
  forget a recent one.  Times are compared exactly.
-/

import Mathlib.Algebra.Order.Group.Defs
import Mathlib.Algebra.Order.Ring.Rat
import Mathlib.Data.Set.Finite.Lemmas
import EcuTelemetry.Backend.Alerts

namespace EcuTelemetry.Backend

open Proc

/-- Differences of times are exact, and compared as such. -/
class ExactTime (F : Type) [PyFloat F] [AddCommGroup F] [LinearOrder F] : Prop where
  sub_eq : ∀ a b : F, PyFloat.sub a b = a - b
  le_iff : ∀ a b : F, PyFloat.le a b = true ↔ a ≤ b

instance : ExactTime ℚ where
  sub_eq _ _ := rfl
  le_iff _ _ := decide_eq_true_iff

namespace Engine

variable {F : Type}

/-! ## The `active` maps -/

/-- The `active` map of a device, empty where there is no record. -/
def active (s : Engine F) (dev : String) : Dict (Json F) F :=
  ((Dict.get? s.devices dev).map DeviceState.active).getD []

/-- The memory after the record of one device is written. -/
theorem active_set {s : Engine F} {dev : String} {d : DeviceState F} (dev' : String) :
    active { s with devices := Dict.set s.devices dev d } dev' =
      if dev' = dev then d.active else s.active dev' := by
  split
  · next h =>
    rw [h, active, Dict.get?_set_self (.of_lawful dev)]
    rfl
  · next h =>
    rw [active, Dict.get?_set_ne (.of_lawful dev) (.of_lawful dev') (Ne.symm h)]
    rfl

theorem inMemory_eq [PyFloat F] (s : Engine F) (dev : String) (key : Json F) :
    s.inMemory dev key = Dict.contains (s.active dev) key := by
  rw [inMemory, active]
  rcases Dict.get? s.devices dev with _ | d <;> rfl

/-- `_st` returns the record and changes no `active` map. -/
theorem st_spec (dev : String) (s : Engine F) :
    ∃ d D, st dev s = (.ok d, { s with devices := D }) ∧ d.active = s.active dev ∧
      ∀ dev', active { s with devices := D } dev' = s.active dev' := by
  rw [st]
  rcases h : Dict.get? s.devices dev with _ | d
  · refine ⟨{}, Dict.set s.devices dev {}, rfl, by rw [active, h]; rfl, fun dev' => ?_⟩
    rw [active_set]
    split
    · next heq => rw [heq, active, h]; rfl
    · rfl
  · exact ⟨d, s.devices, rfl, by rw [active, h]; rfl, fun _ => rfl⟩

/-- A change of a record, as its `active` map sees it. -/
theorem modifySt_spec {f : DeviceState F → DeviceState F} {g : Dict (Json F) F → Dict (Json F) F}
    (hf : ∀ d, (f d).active = g d.active) (dev : String) (s : Engine F) :
    ∃ D, modifySt dev f s = (.ok (), { s with devices := D }) ∧
      ∀ dev', active { s with devices := D } dev' =
        if dev' = dev then g (s.active dev) else s.active dev' := by
  obtain ⟨d, D, hst, hd, hD⟩ := st_spec dev s
  refine ⟨Dict.set D dev (f d), by rw [modifySt, bind_run_ok hst]; rfl, fun dev' => ?_⟩
  have hset : active { s with devices := Dict.set D dev (f d) } dev' =
      if dev' = dev then (f d).active else active { s with devices := D } dev' :=
    active_set (s := { s with devices := D }) dev'
  rw [hset, hf, hd, hD]

/-! ## Observations -/

/-- An evaluation of the rule for the device, on record. -/
structure Saw (s : Engine F) (dev rule : String) (cond : Bool) (o : Observation F) : Prop where
  mem : o ∈ s.observed
  deviceId : o.deviceId = dev
  rule : o.rule = .str rule
  cond : o.cond = cond

/-- The last sample on which a rule was true. -/
theorem exists_last_true {s : Engine F} {dev r : String} (h : ∃ o, Saw s dev r true o) :
    ∃ o, Saw s dev r true o ∧ ∀ o', Saw s dev r true o' → o'.sample ≤ o.sample := by
  have hfin : {o | Saw s dev r true o}.Finite :=
    (List.finite_toSet s.observed).subset fun o ho => ho.mem
  obtain ⟨o, ho, hmax⟩ := Set.exists_max_image _ Observation.sample hfin h
  exact ⟨o, ho, hmax⟩

variable [PyFloat F]

section Clear

variable [AddCommGroup F] [LinearOrder F]

/-- The condition was not observed true in `(now - h, now]`, and an evaluation
    on a later sample than the last true one found it false. -/
structure Cleared (s : Engine F) (dev rule : String) (now h : F) : Prop where
  notTrue : ∀ o, Saw s dev rule true o → ¬ (now - h < o.time ∧ o.time ≤ now)
  seenFalse : ∃ o, Saw s dev rule false o ∧ ∀ o', Saw s dev rule true o' → o'.sample < o.sample

/-- No device has fallen silent on a true sample, and what an earlier process
    saw last is not more recent than the alert's row tells. -/
structure Reports (s : Engine F) (now : F) : Prop where
  /-- since the rule was last true it was evaluated again, or the hold time is not over -/
  fresh : ∀ h, s.hold = .ok h → ∀ a ∈ s.db.alerts, a.status.unresolved → ∀ r, a.rule = some r →
    ∀ o, Saw s a.deviceId r true o →
      now - h < o.time ∨ ∃ cond o', Saw s a.deviceId r cond o' ∧ o.sample < o'.sample
  /-- a true observation of an earlier process is older than the hold time, or was
      made again, or the row was written within the hold time -/
  kept : ∀ h, s.hold = .ok h → ∀ a ∈ s.db.alerts, a.status.unresolved → ∀ r, a.rule = some r →
    ∀ o, Saw s a.deviceId r true o → o.sample ≤ s.born →
      o.time ≤ now - h ∨ (∃ o', Saw s a.deviceId r true o' ∧ s.born < o'.sample) ∨
        now - stamp a < h

end Clear

/-! ## The invariant -/

/-- A rule's name that is a text; no row can hold one with a lone surrogate. -/
def IsText (name : Json F) : Prop := (∃ r, name = .str r) ∨ ∃ t, name = .lone t

omit [PyFloat F] in
theorem isText_str (r : String) : IsText (.str r : Json F) := .inl ⟨r, rfl⟩

theorem IsText.exact {name : Json F} (h : IsText name) : Dict.Exact name := by
  rcases h with ⟨r, rfl⟩ | ⟨t, rfl⟩
  · exact Json.exact_str r
  · exact Json.exact_lone t

/-- What the memory and the alerts table know of the observations. -/
structure Tracked [LE F] (s : Engine F) : Prop where
  alerts : s.db.AlertsOk
  samples : ∀ o ∈ s.observed, o.sample ≤ s.samples
  distinct : ∀ dev, Dict.Distinct (s.active dev)
  /-- an entry is no older than any true observation -/
  entries : ∀ dev, ∀ e ∈ s.active dev,
    IsText e.1 ∧ ∀ r, e.1 = .str r → ∀ o, Saw s dev r true o → o.time ≤ e.2
  /-- an alert without an entry was last true in an earlier process -/
  lost : ∀ a ∈ s.db.alerts, a.status.unresolved → ∀ r, a.rule = some r →
    Dict.contains (s.active a.deviceId) (.str r) = false →
    ∀ o, Saw s a.deviceId r true o → o.sample ≤ s.born
  opened : ∀ a ∈ s.db.alerts, ∀ r, a.rule = some r → ∃ o, Saw s a.deviceId r true o

/-! ### Observing -/

section Observe

variable [Preorder F] {s s' : Engine F} {now : F}

omit [PyFloat F] [Preorder F] in
theorem moves_of_eq (h : s'.db.alerts = s.db.alerts) :
    ∀ a' ∈ s'.db.alerts, ∃ a ∈ s.db.alerts, a.Moves a' :=
  fun a' ha' => ⟨a', h ▸ ha', .refl a'⟩

/-- All observations are in the past. -/
def Upto (now : F) (s : Engine F) : Prop := ∀ o ∈ s.observed, o.time ≤ now

/-- A change that leaves the `active` maps and the true observations alone, and
    moves alerts forward at most. -/
theorem Tracked.quiet (h : Tracked s) (halerts : s'.db.AlertsOk)
    (hrows : ∀ a' ∈ s'.db.alerts, ∃ a ∈ s.db.alerts, a.Moves a')
    (hactive : ∀ dev, s'.active dev = s.active dev)
    (htrue : ∀ dev r o, Saw s' dev r true o ↔ Saw s dev r true o)
    (hsamples : ∀ o ∈ s'.observed, o.sample ≤ s'.samples) (hborn : s.born ≤ s'.born) :
    Tracked s' where
  alerts := halerts
  samples := hsamples
  distinct dev := by rw [hactive]; exact h.distinct dev
  entries dev := by
    rw [hactive]
    intro e he
    obtain ⟨htext, htime⟩ := h.entries dev e he
    exact ⟨htext, fun r hr o ho => htime r hr o ((htrue dev r o).mp ho)⟩
  lost := by
    intro a' ha' hopen r hr hnone o ho
    -- the row was there before, unresolved as well
    obtain ⟨a, ha, hmoves⟩ := hrows a' ha'
    rw [hactive, hmoves.deviceId] at hnone
    rw [hmoves.deviceId] at ho
    exact Nat.le_trans (h.lost a ha (hmoves.unresolved hopen) r (hmoves.rule ▸ hr) hnone o
      ((htrue _ _ _).mp ho)) hborn
  opened := by
    intro a' ha' r hr
    obtain ⟨a, ha, hmoves⟩ := hrows a' ha'
    obtain ⟨o, ho⟩ := h.opened a ha r (hmoves.rule ▸ hr)
    exact ⟨o, (htrue _ _ _).mpr (hmoves.deviceId ▸ ho)⟩

omit [PyFloat F] [Preorder F] in
/-- A new observation is the one made, or it was there before. -/
theorem saw_cons {dev r dev' r' : String} {cond cond' : Bool} {o o' : Observation F}
    (hobs : s'.observed = o' :: s.observed) (ho' : o'.deviceId = dev' ∧ o'.rule = .str r')
    (hcond : o'.cond = cond') (h : Saw s' dev r cond o) :
    (o = o' ∧ dev = dev' ∧ r = r' ∧ cond = cond') ∨ Saw s dev r cond o := by
  have hmem := h.mem
  rw [hobs] at hmem
  rcases List.mem_cons.mp hmem with rfl | hmem
  · refine .inl ⟨rfl, h.deviceId.symm.trans ho'.1, ?_, h.cond.symm.trans hcond⟩
    have hrule := h.rule.symm.trans ho'.2
    cases hrule
    rfl
  · exact .inr ⟨hmem, h.deviceId, h.rule, h.cond⟩

omit [PyFloat F] [Preorder F] in
theorem Saw.cons {dev r : String} {cond : Bool} {o o' : Observation F}
    (hobs : s'.observed = o' :: s.observed) (h : Saw s dev r cond o) : Saw s' dev r cond o :=
  ⟨by rw [hobs]; exact List.mem_cons_of_mem _ h.mem, h.deviceId, h.rule, h.cond⟩

/-- A rule seen true at the latest time, with its entry in the `active` map and its alert. -/
theorem Tracked.sawTrue (h : Tracked s) (hnow : Upto now s) {dev r : String}
    (halerts : s'.db.AlertsOk)
    (hobs : s'.observed =
      { sample := s.samples, deviceId := dev, rule := .str r, cond := true, time := now } ::
        s.observed)
    (hsamples : s'.samples = s.samples) (hborn : s'.born = s.born)
    (hactive : ∀ dev', s'.active dev' =
      if dev' = dev then Dict.set (s.active dev) (.str r) now else s.active dev')
    (hrows : ∀ a ∈ s'.db.alerts, a ∈ s.db.alerts ∨ (a.deviceId = dev ∧ a.rule = some r)) :
    Tracked s' := by
  have hexact : Dict.Exact (.str r : Json F) := Json.exact_str r
  have hnew : Saw s' dev r true
      { sample := s.samples, deviceId := dev, rule := .str r, cond := true, time := now } :=
    ⟨by rw [hobs]; exact List.mem_cons_self, rfl, rfl, rfl⟩
  refine ⟨halerts, ?_, ?_, ?_, ?_, ?_⟩
  · rw [hobs, hsamples]
    exact List.forall_mem_cons.mpr ⟨Nat.le_refl _, h.samples⟩
  · intro dev'
    rw [hactive]
    split
    · exact (h.distinct dev).set hexact
    · exact h.distinct dev'
  · intro dev' e he
    rw [hactive] at he
    have hold : e ∈ s.active dev' → IsText e.1 ∧ ∀ r', e.1 = .str r' → (dev' = dev → r' ≠ r) →
        ∀ o, Saw s' dev' r' true o → o.time ≤ e.2 := by
      intro he
      obtain ⟨htext, htime⟩ := h.entries dev' e he
      refine ⟨htext, fun r' hr' hne o ho => ?_⟩
      rcases saw_cons hobs ⟨rfl, rfl⟩ rfl ho with ⟨-, hdev, hr, -⟩ | ho
      · exact absurd hr (hne hdev)
      · exact htime r' hr' o ho
    split at he
    · next hdev =>
      subst hdev
      -- the entry of this rule is the new one, all others are old
      by_cases hkey : e.1 = .str r
      · obtain ⟨key, time⟩ := e
        cases hkey
        have hval := Dict.get?_of_mem hexact ((h.distinct _).set hexact) he
        rw [Dict.get?_set_self hexact] at hval
        refine ⟨isText_str r, fun r' hr' o ho => ?_⟩
        cases hr'
        rw [← Option.some.inj hval]
        rcases saw_cons hobs ⟨rfl, rfl⟩ rfl ho with ⟨rfl, -⟩ | ho
        · exact le_refl now
        · exact hnow o ho.mem
      · rcases Dict.mem_set hexact he with rfl | he
        · exact absurd rfl hkey
        · obtain ⟨htext, htime⟩ := hold he
          exact ⟨htext, fun r' hr' => htime r' hr' fun _ heq => hkey (heq ▸ hr')⟩
    · next hdev =>
      obtain ⟨htext, htime⟩ := hold he
      exact ⟨htext, fun r' hr' => htime r' hr' fun heq => absurd heq hdev⟩
  · intro a ha hopen r' hr' hnone o ho
    rw [hactive] at hnone
    by_cases hthis : a.deviceId = dev ∧ r' = r
    · obtain ⟨hdev, rfl⟩ := hthis
      rw [if_pos hdev, Dict.contains, Dict.get?_set_self hexact] at hnone
      cases hnone
    · rcases hrows a ha with ha | ⟨hdev, hrule⟩
      · have hnone' : Dict.contains (s.active a.deviceId) (.str r') = false := by
          rw [← hnone]
          split
          · next hdev =>
            have hne : r ≠ r' := fun heq => hthis ⟨hdev, heq.symm⟩
            rw [Dict.contains, Dict.contains, hdev,
              Dict.get?_set_ne hexact (Json.exact_str r') (fun heq => hne (Json.str.inj heq))]
          · rfl
        rcases saw_cons hobs ⟨rfl, rfl⟩ rfl ho with ⟨-, hdev, hr, -⟩ | ho
        · exact absurd ⟨hdev, hr⟩ hthis
        · rw [hborn]
          exact h.lost a ha hopen r' hr' hnone' o ho
      · exact absurd ⟨hdev, Option.some.inj (hr'.symm.trans hrule)⟩ hthis
  · intro a ha r' hr'
    rcases hrows a ha with ha | ⟨hdev, hrule⟩
    · obtain ⟨o, ho⟩ := h.opened a ha r' hr'
      exact ⟨o, ho.cons hobs⟩
    · rw [hdev, Option.some.inj (hr'.symm.trans hrule)]
      exact ⟨_, hnew⟩

/-- A rule seen true whose name no row can hold: the entry stays without an alert. -/
theorem Tracked.sawLone (h : Tracked s) {dev : String} {t : LoneText} {o : Observation F}
    (hrule : o.rule = .lone t) (hsample : o.sample ≤ s.samples) (hdb : s'.db = s.db)
    (hobs : s'.observed = o :: s.observed) (hsamples : s'.samples = s.samples)
    (hborn : s'.born = s.born)
    (hactive : ∀ dev', s'.active dev' =
      if dev' = dev then Dict.set (s.active dev) (.lone t) now else s.active dev') :
    Tracked s' := by
  have hexact : Dict.Exact (.lone t : Json F) := Json.exact_lone t
  -- the observation is of no rule that has a text a row can hold
  have hsaw : ∀ {dev r cond o'}, Saw s' dev r cond o' → Saw s dev r cond o' :=
    fun {_ _ _ o'} ho => by
    have hmem := ho.mem
    rw [hobs] at hmem
    rcases List.mem_cons.mp hmem with rfl | hmem
    · cases hrule.symm.trans ho.rule
    · exact ⟨hmem, ho.deviceId, ho.rule, ho.cond⟩
  refine ⟨by rw [hdb]; exact h.alerts, ?_, fun dev' => ?_, fun dev' e he => ?_, ?_, ?_⟩
  · rw [hobs, hsamples]
    exact List.forall_mem_cons.mpr ⟨hsample, h.samples⟩
  · rw [hactive]
    split
    · exact (h.distinct dev).set hexact
    · exact h.distinct dev'
  · rw [hactive] at he
    have hold : e ∈ s.active dev' → IsText e.1 ∧ ∀ r, e.1 = .str r →
        ∀ o, Saw s' dev' r true o → o.time ≤ e.2 := fun he =>
      ⟨(h.entries dev' e he).1, fun r hr o ho => (h.entries dev' e he).2 r hr o (hsaw ho)⟩
    split at he
    · next hdev =>
      rcases Dict.mem_set hexact he with rfl | he
      · exact ⟨.inr ⟨t, rfl⟩, fun r hr => by cases hr⟩
      · exact hold (hdev ▸ he)
    · exact hold he
  · rw [hdb]
    intro a ha hopen r hr hnone o ho
    rw [hborn]
    refine h.lost a ha hopen r hr ?_ o (hsaw ho)
    rw [← hnone, hactive]
    split
    · next hdev =>
      rw [Dict.contains, Dict.contains, hdev,
        Dict.get?_set_ne hexact (Json.exact_str r) fun heq => by cases heq]
    · rfl
  · rw [hdb]
    intro a ha r hr
    obtain ⟨o', ho'⟩ := h.opened a ha r hr
    exact ⟨o', ho'.cons hobs⟩

/-- What an evaluation of the rules at `now` keeps. -/
def Tracks (now : F) (s s' : Engine F) : Prop :=
  SameRules s s' ∧ (Tracked s ∧ Upto now s → Tracked s' ∧ Upto now s')

instance (now : F) : IsPreorder (Engine F) (Tracks now) where
  refl _ := ⟨⟨rfl, rfl⟩, id⟩
  trans _ _ _ h h' := ⟨h.1.trans h'.1, h'.2 ∘ h.2⟩

/-- What leaves memory, alerts and observations as they are is tracked. -/
theorem Tracks.of_active (hrules : s'.rules = s.rules) (hdb : s'.db = s.db)
    (hobs : s'.observed = s.observed) (hsamples : s'.samples = s.samples)
    (hborn : s'.born = s.born) (hactive : ∀ dev, s'.active dev = s.active dev) :
    Tracks now s s' := by
  refine ⟨⟨hrules, by rw [hdb]⟩, fun ⟨h, hnow⟩ => ⟨?_, by rw [Upto, hobs]; exact hnow⟩⟩
  refine h.quiet (by rw [hdb]; exact h.alerts) (moves_of_eq (by rw [hdb])) hactive
    (fun dev r o => ?_) ?_ (Nat.le_of_eq hborn.symm)
  · constructor
    · exact fun ho => ⟨hobs ▸ ho.mem, ho.deviceId, ho.rule, ho.cond⟩
    · exact fun ho => ⟨hobs ▸ ho.mem, ho.deviceId, ho.rule, ho.cond⟩
  · rw [hobs, hsamples]
    exact h.samples

theorem tracks_st (dev : String) : Keeps (Tracks now) (st dev) := by
  intro s
  obtain ⟨d, D, hst, -, hD⟩ := st_spec dev s
  rw [hst]
  exact .of_active rfl rfl rfl rfl rfl hD

/-- A condition that does not hold adds an observation, nothing else. -/
theorem tracks_observe_false (dev r : String) :
    Keeps (Tracks now) (observe dev (.str r) false now) := by
  intro s
  refine ⟨⟨rfl, rfl⟩, fun ⟨h, hnow⟩ => ⟨?_, List.forall_mem_cons.mpr ⟨le_refl now, hnow⟩⟩⟩
  refine h.quiet h.alerts (moves_of_eq rfl) (fun _ => rfl)
    (fun dev' r' o => ⟨fun ho => ?_, fun ho => ?_⟩)
    (List.forall_mem_cons.mpr ⟨Nat.le_refl _, h.samples⟩) (Nat.le_refl _)
  · rcases saw_cons rfl ⟨rfl, rfl⟩ rfl ho with ⟨-, -, -, hcond⟩ | ho
    · cases hcond
    · exact ho
  · exact ho.cons rfl

/-- `mark` notes the observation, the time in the memory, and the row. -/
theorem tracks_mark (dev r : String) (cond : Bool) (metric : Option String) (value : Option F)
    (severity message : Json F) (clock : F) :
    Keeps (Tracks now) (mark dev (.str r) cond now metric value severity message clock) := by
  refine (tracks_st dev).bind fun _ => ?_
  cases cond with
  | false => exact Keeps.bind (tracks_observe_false dev r) fun _ => Keeps.pure _
  | true =>
    intro s
    let seen : Observation F :=
      { sample := s.samples, deviceId := dev, rule := .str r, cond := true, time := now }
    let s₁ : Engine F := { s with observed := seen :: s.observed }
    let f (d : DeviceState F) : DeviceState F :=
      { d with active := Dict.set d.active (.str r) now }
    -- the memory takes the time of the sample before the alert is looked up
    obtain ⟨D, hD, hactive⟩ := modifySt_spec (f := f) (g := fun m => Dict.set m (.str r) now)
      (fun _ => rfl) dev s₁
    change Tracks now s ((modifySt dev f >>= fun _ =>
      openIfNone dev (some r) metric value severity message clock) s₁).2
    rw [bind_run_ok hD]
    have hopen :=
      openIfNone_spec dev (some r) metric value severity message clock { s₁ with devices := D }
    -- an alert is open already, or the row is new
    rcases hopen with heq | ⟨hnone, sev, msg, heq⟩
    · rw [heq]
      refine ⟨⟨rfl, rfl⟩, fun ⟨h, hnow⟩ => ⟨?_, List.forall_mem_cons.mpr ⟨le_refl now, hnow⟩⟩⟩
      exact h.sawTrue hnow h.alerts rfl rfl rfl hactive fun a ha => .inl ha
    · rw [heq]
      refine ⟨⟨rfl, rfl⟩, fun ⟨h, hnow⟩ => ⟨?_, List.forall_mem_cons.mpr ⟨le_refl now, hnow⟩⟩⟩
      refine h.sawTrue hnow (h.alerts.createAlert nofun hnone) rfl rfl rfl hactive fun a ha => ?_
      rcases List.mem_append.mp ha with ha | ha
      · exact .inl ha
      · rw [List.mem_singleton.mp ha]
        exact .inr ⟨rfl, rfl⟩

/-- A name with a lone surrogate goes into the memory too; no row can have it. -/
theorem tracks_mark_lone (dev : String) (t : LoneText) (cond : Bool) (metric : Option String)
    (value : Option F) (severity message : Json F) (clock : F) :
    Keeps (Tracks now) (mark dev (.lone t) cond now metric value severity message clock) := by
  refine (tracks_st dev).bind fun _ => ?_
  let seen (s : Engine F) : Observation F :=
    { sample := s.samples, deviceId := dev, rule := .lone t, cond := cond, time := now }
  cases cond with
  | false =>
    refine Keeps.bind (m := observe dev (.lone t) false now) (fun s => ?_) fun _ => Keeps.pure _
    refine ⟨⟨rfl, rfl⟩, fun ⟨h, hnow⟩ => ⟨?_, List.forall_mem_cons.mpr ⟨le_refl now, hnow⟩⟩⟩
    refine h.quiet h.alerts (moves_of_eq rfl) (fun _ => rfl)
      (fun dev' r' o => ⟨fun ho => ?_, fun ho => ?_⟩)
      (List.forall_mem_cons.mpr ⟨Nat.le_refl _, h.samples⟩) (Nat.le_refl _)
    · rcases List.mem_cons.mp ho.mem with rfl | hmem
      · cases ho.rule
      · exact ⟨hmem, ho.deviceId, ho.rule, ho.cond⟩
    · exact ho.cons rfl
  | true =>
    intro s
    let s₁ : Engine F := { s with observed := seen s :: s.observed }
    let f (d : DeviceState F) : DeviceState F :=
      { d with active := Dict.set d.active (.lone t) now }
    obtain ⟨D, hD, hactive⟩ := modifySt_spec (f := f) (g := fun m => Dict.set m (.lone t) now)
      (fun _ => rfl) dev s₁
    -- the entry is made before SQLite refuses the name
    change Tracks now s ((modifySt dev f >>= fun _ =>
      (Proc.raise .unicodeEncodeError : EngineM F Unit)) s₁).2
    rw [bind_run_ok hD]
    refine ⟨⟨rfl, rfl⟩, fun ⟨h, hnow⟩ => ⟨?_, List.forall_mem_cons.mpr ⟨le_refl now, hnow⟩⟩⟩
    exact h.sawLone (o := seen s) rfl (Nat.le_refl _) rfl rfl rfl rfl hactive

/-- What a sample does is tracked. -/
theorem sampleFrame_tracks (dev : String) (now clock : F) :
    SampleFrame (Tracks now) IsText dev now clock where
  rules _ _ h := h.1.1
  str := isText_str
  configCache _ _ := .of_active rfl rfl rfl rfl rfl fun _ => rfl
  hwCache _ _ := .of_active rfl rfl rfl rfl rfl fun _ => rfl
  st := tracks_st dev
  modifySt f hf s := by
    obtain ⟨D, hD, hactive⟩ := modifySt_spec (g := id) hf dev s
    rw [hD]
    refine .of_active rfl rfl rfl rfl rfl fun dev' => ?_
    rw [hactive]
    split
    · next heq => rw [heq]; rfl
    · rfl
  observe r := tracks_observe_false dev r
  mark name cond metric value severity message hname := by
    rcases hname with ⟨r, rfl⟩ | ⟨t, rfl⟩
    · exact tracks_mark dev r cond metric value severity message clock
    · exact tracks_mark_lone dev t cond metric value severity message clock

theorem tracks_onOffline (dev : String) (now clock : F) :
    Keeps (Tracks now) (onOffline dev now clock) := by
  refine Keeps.get.bind fun s => (Keeps.ofExcept _).bind fun enabled => ?_
  refine Keeps.ite (fun _ => (Keeps.ofExcept _).bind fun _ => ?_) fun _ => Keeps.pure _
  exact tracks_mark dev "offline" true none none _ _ clock

end Observe

/-! ### Resolving -/

/-- What `resolve` does to a rule with a text for a name. -/
structure Resolved (dev r : String) (s s' : Engine F) : Prop where
  same : SameRules s s'
  observed : s'.observed = s.observed
  samples : s'.samples = s.samples
  born : s'.born = s.born
  alerts : s'.db.AlertsOk
  active : ∀ dev', s'.active dev' =
    if dev' = dev then Dict.pop (s.active dev) (.str r) else s.active dev'
  /-- a row is as before and not a live one of the rule, or it was and is resolved now -/
  rows : ∀ a' ∈ s'.db.alerts, (a' ∈ s.db.alerts ∧ ¬ a'.live dev (some r)) ∨
    ∃ a ∈ s.db.alerts, a.live dev (some r) ∧ a'.id = a.id ∧ a'.deviceId = a.deviceId ∧
      a'.rule = a.rule ∧ a'.status = .resolved

/-- `resolve` on tables in order: the rule leaves the memory, its row is closed. -/
theorem resolve_spec {s : Engine F} (hok : s.db.AlertsOk) (dev r : String) (now clock : F) :
    ∃ s', resolve dev (.str r) now clock s = (.ok (), s') ∧ Resolved dev r s s' := by
  let f (d : DeviceState F) : DeviceState F := { d with active := Dict.pop d.active (.str r) }
  obtain ⟨D, hD, hactive⟩ := modifySt_spec (f := f) (g := fun m => Dict.pop m (.str r))
    (fun _ => rfl) dev s
  have hsql : Proc.ofExcept (Json.str r : Json F).sqlText s = (.ok (some r), s) := rfl
  rw [resolve, bind_run_ok hsql, bind_run_ok (get_run s), bind_run_ok hD]
  -- with no open row only the memory changes
  rcases ha : s.db.openAlert dev (some r) with _ | a
  · refine ⟨_, rfl, ⟨rfl, rfl⟩, rfl, rfl, rfl, hok, hactive, fun a' ha' => .inl ⟨ha', ?_⟩⟩
    exact List.countP_eq_zero.mp (Database.openAlert_some_eq_none.mp ha) a' ha'
  · obtain ⟨hmem, hlive⟩ := Database.openAlert_spec ha
    have hcloses : s.db.Closes (s.db.updateAlert a.id clock fun a =>
        { a with status := .resolved, resolvedAt := some now }) :=
      .updateAlert fun a _ _ => ⟨rfl, rfl, rfl, a.status.rank_le_resolved⟩
    refine ⟨_, rfl, ⟨rfl, rfl⟩, rfl, rfl, rfl, hcloses.alertsOk hok, hactive, fun a' ha' => ?_⟩
    obtain ⟨b, hb, rfl⟩ := List.mem_map.mp ha'
    split
    · next hid =>
      -- ids are unique, and a device has one live row of a rule
      rw [hok.eq_of_id hb hmem hid]
      exact .inr ⟨a, hmem, hlive, rfl, rfl, rfl, rfl⟩
    · next hid =>
      refine .inl ⟨hb, fun hlb => hid ?_⟩
      rw [hok.eq_of_live hb hmem hlb hlive]

/-- The invariant after `resolve`. -/
theorem Tracked.resolve [LE F] {dev r : String} {s s' : Engine F} (h : Tracked s)
    (hr : Resolved dev r s s') : Tracked s' := by
  have hsaw : ∀ {dev r cond o}, Saw s' dev r cond o → Saw s dev r cond o := fun ho =>
    ⟨hr.observed ▸ ho.mem, ho.deviceId, ho.rule, ho.cond⟩
  have hold : ∀ a' ∈ s'.db.alerts, ∃ a ∈ s.db.alerts, a'.deviceId = a.deviceId ∧
      a'.rule = a.rule := by
    intro a' ha'
    rcases hr.rows a' ha' with ⟨ha, -⟩ | ⟨a, ha, -, -, hdev, hrule, -⟩
    · exact ⟨a', ha, rfl, rfl⟩
    · exact ⟨a, ha, hdev, hrule⟩
  refine ⟨hr.alerts, ?_, fun dev' => ?_, fun dev' e he => ?_, ?_, ?_⟩
  · rw [hr.observed, hr.samples]
    exact h.samples
  · rw [hr.active]
    split
    · exact (h.distinct dev).pop
    · exact h.distinct dev'
  · have hmem : e ∈ s.active dev' := by
      rw [hr.active] at he
      split at he
      · next heq => rw [heq]; exact Dict.pop_sublist.mem he
      · exact he
    obtain ⟨htext, htime⟩ := h.entries dev' e hmem
    exact ⟨htext, fun r' hr' o ho => htime r' hr' o (hsaw ho)⟩
  · intro a ha hopen r' hr' hnone o ho
    rcases hr.rows a ha with ⟨ha, hnot⟩ | ⟨-, -, -, -, -, -, hresolved⟩
    · rw [hr.born]
      refine h.lost a ha hopen r' hr' ?_ o (hsaw ho)
      rw [← hnone, hr.active]
      split
      · next hdev =>
        -- the entry that went is another rule's
        have hne : r ≠ r' := fun heq => hnot (by simp [AlertRow.live, hdev, hr', heq, hopen])
        rw [Dict.contains, Dict.contains, hdev, Dict.get?_pop_ne (Json.exact_str r)
          (Json.exact_str r') fun heq => hne (Json.str.inj heq)]
      · rfl
    · rw [hresolved] at hopen
      cases hopen
  · intro a' ha' r' hr'
    obtain ⟨a, ha, hdev, hrule⟩ := hold a' ha'
    obtain ⟨o, ho⟩ := h.opened a ha r' (hrule ▸ hr')
    exact ⟨o, hr.observed ▸ ho.mem, hdev ▸ ho.deviceId, ho.rule, ho.cond⟩

/-! ### Ticking -/

section Tick

variable [AddCommGroup F] [LinearOrder F]

/-- The state inside a `tick` that began in `s`: what has been resolved was clear. -/
structure Ticking (now h : F) (s s' : Engine F) : Prop where
  tracked : Tracked s'
  observed : s'.observed = s.observed
  same : SameRules s s'
  active : ∀ dev, ∀ e ∈ s'.active dev, e ∈ s.active dev
  rows : ∀ a' ∈ s'.db.alerts, ∃ a ∈ s.db.alerts, a'.deviceId = a.deviceId ∧ a'.rule = a.rule ∧
    (a' = a ∨ (a'.id = a.id ∧ a'.status = .resolved ∧
      ∀ r, a.rule = some r → Cleared s a.deviceId r now h))
  /-- an alert that has lost its entry was cleared, or was last true in an earlier process -/
  lost : ∀ a ∈ s.db.alerts, a.status.unresolved → ∀ r, a.rule = some r →
    Dict.contains (s'.active a.deviceId) (.str r) = false →
    Cleared s a.deviceId r now h ∨ ∀ o, Saw s a.deviceId r true o → o.sample ≤ s.born

theorem Ticking.refl {now h : F} {s : Engine F} (hs : Tracked s) : Ticking now h s s :=
  ⟨hs, rfl, ⟨rfl, rfl⟩, fun _ _ he => he, fun a ha => ⟨a, ha, rfl, rfl, .inl rfl⟩,
    fun a ha hopen r hr hnone => .inr (hs.lost a ha hopen r hr hnone)⟩

/-- A record that is only made changes nothing in the memory. -/
theorem Ticking.of_active {now h : F} {s s' : Engine F} {D : Dict String (DeviceState F)}
    (ht : Ticking now h s s')
    (hD : ∀ dev, Engine.active { s' with devices := D } dev = s'.active dev) :
    Ticking now h s { s' with devices := D } := by
  refine ⟨?_, ht.observed, ht.same, fun dev e he => ht.active dev e (hD dev ▸ he), ht.rows, ?_⟩
  · exact ht.tracked.quiet ht.tracked.alerts (moves_of_eq rfl) hD
      (fun _ _ _ => ⟨fun h => ⟨h.mem, h.deviceId, h.rule, h.cond⟩,
        fun h => ⟨h.mem, h.deviceId, h.rule, h.cond⟩⟩) ht.tracked.samples (Nat.le_refl _)
  · intro a ha hopen r hr hnone
    rw [hD] at hnone
    exact ht.lost a ha hopen r hr hnone

/-- `resolve` where the rule is clear if it has a live alert. -/
theorem Ticking.resolve {now h : F} {s s' s'' : Engine F} {dev r : String}
    (ht : Ticking now h s s')
    (hclear : ∀ a ∈ s.db.alerts, a.live dev (some r) → Cleared s dev r now h)
    (hr : Resolved dev r s' s'') : Ticking now h s s'' := by
  refine ⟨ht.tracked.resolve hr, hr.observed.trans ht.observed, ht.same.trans hr.same, ?_, ?_, ?_⟩
  · intro dev' e he
    rw [hr.active] at he
    split at he
    · next heq => rw [heq]; exact ht.active dev e (Dict.pop_sublist.mem he)
    · exact ht.active dev' e he
  · intro a'' ha''
    -- a row after it is one of before, or one that this call has closed
    rcases hr.rows a'' ha'' with ⟨ha', -⟩ | ⟨a', ha', hlive, hid, hdev, hrule, hresolved⟩
    · exact ht.rows a'' ha'
    · obtain ⟨a, ha, hdev', hrule', hcase⟩ := ht.rows a' ha'
      refine ⟨a, ha, hdev.trans hdev', hrule.trans hrule', .inr ?_⟩
      rcases hcase with rfl | ⟨hid', -, hcleared⟩
      · refine ⟨hid, hresolved, fun r' hr' => ?_⟩
        have hc := hclear _ ha hlive
        simp only [AlertRow.live, decide_eq_true_eq] at hlive
        obtain ⟨rfl, hrule, -⟩ := hlive
        cases hrule.symm.trans hr'
        exact hc
      · exact ⟨hid.trans hid', hresolved, hcleared⟩
  · intro a ha hopen r' hr' hnone
    -- the rule just resolved, or one that has left the memory before
    by_cases hthis : a.deviceId = dev ∧ r' = r
    · obtain ⟨rfl, rfl⟩ := hthis
      exact .inl (hclear a ha (by simp [AlertRow.live, hr', hopen]))
    · refine ht.lost a ha hopen r' hr' ?_
      rw [← hnone, hr.active]
      split
      · next hdev =>
        have hne : r ≠ r' := fun heq => hthis ⟨hdev, heq.symm⟩
        rw [Dict.contains, Dict.contains, hdev, Dict.get?_pop_ne (Json.exact_str r)
          (Json.exact_str r') fun heq => hne (Json.str.inj heq)]
      · rfl

variable {now h : F} {s : Engine F}

/-- An alert is clear if all its rule's true observations are old and the device reports. -/
theorem cleared_of_old (hs : Tracked s) (hreports : Reports s now) (hhold : s.hold = .ok h)
    {a : AlertRow F} (ha : a ∈ s.db.alerts) (hopen : a.status.unresolved) {r : String}
    (hr : a.rule = some r) (hold : ∀ o, Saw s a.deviceId r true o → o.time ≤ now - h) :
    Cleared s a.deviceId r now h := by
  refine ⟨fun o ho hin => absurd hin.1 (not_lt.mpr (hold o ho)), ?_⟩
  obtain ⟨o, ho, hlast⟩ := exists_last_true (hs.opened a ha r hr)
  rcases hreports.fresh h hhold a ha hopen r hr o ho with hyoung | ⟨cond, o', ho', hlater⟩
  · exact absurd hyoung (not_lt.mpr (hold o ho))
  · cases cond with
    | true => exact absurd (hlast o' ho') (not_le.mpr hlater)
    | false => exact ⟨o', ho', fun o'' ho'' => Nat.lt_of_le_of_lt (hlast o'' ho'') hlater⟩

variable [ExactTime F]

/-- The sweep over an alert of the table. -/
theorem ticking_tickSweep (hs : Tracked s) (hreports : Reports s now) (hhold : s.hold = .ok h)
    (clock : F) {a : AlertRow F} (ha : a ∈ s.db.alerts ∧ a.status.unresolved) :
    Triple (Ticking now h s) (tickSweep now clock h a) (fun _ => Ticking now h s)
      (Ticking now h s) := by
  obtain ⟨ha, hopen⟩ := ha
  obtain ⟨r, hr⟩ := Option.ne_none_iff_exists'.mp (hs.alerts.named a ha)
  refine .bind (Q := fun s₁ s' => s₁ = s' ∧ Ticking now h s s') (.get fun _ ht => ⟨rfl, ht⟩)
    fun s₁ => ?_
  dsimp only
  refine .ite (fun _ => .pure fun _ ht => ht.2) fun _ => .ite (fun _ => .pure fun _ ht => ht.2)
    fun hnone => .ite (fun hdue => ?_) fun _ => .pure fun _ ht => ht.2
  rintro s' ⟨rfl, ht⟩
  obtain ⟨s'', hrun, hres⟩ := resolve_spec ht.tracked.alerts a.deviceId r now clock
  rw [hr]
  dsimp only [Option.map_some, Option.getD_some]
  rw [hrun]
  -- the row is closed; it was clear for the hold time, or is too old
  refine ht.resolve (fun b hb hlive => ?_) hres
  have hba : b = a := hs.alerts.eq_of_live hb ha hlive (by simp [AlertRow.live, hr, hopen])
  subst hba
  have hnone' : Dict.contains (s₁.active b.deviceId) (.str r) = false := by
    rw [Bool.not_eq_true, inMemory_eq, hr] at hnone
    exact hnone
  -- the rule has left the memory: cleared by this tick, or lost before
  rcases ht.lost b ha hopen r hr hnone' with hc | hlost
  · exact hc
  · refine cleared_of_old hs hreports hhold ha hopen hr fun o ho => ?_
    rcases hreports.kept h hhold b ha hopen r hr o ho
      (hlost o ho) with hold | ⟨o', ho', hnew⟩ | hyoung
    · exact hold
    · exact absurd (hlost o' ho') (not_le.mpr hnew)
    · rw [ExactTime.le_iff, ExactTime.sub_eq] at hdue
      exact absurd hyoung (not_lt.mpr hdue)

variable [IsOrderedAddMonoid F]

/-- Python's test `now - x >= hold`. -/
theorem old_of_le {x : F} (hle : PyFloat.le h (PyFloat.sub now x) = true) : x ≤ now - h := by
  rw [ExactTime.le_iff, ExactTime.sub_eq] at hle
  exact le_sub_comm.mp hle

/-- The in-memory pass over a device. -/
theorem ticking_tickActive (hs : Tracked s) (hreports : Reports s now)
    (hhold : s.hold = .ok h) (clock : F) (dev : String) {m : Dict (Json F) F}
    (hm : ∀ e ∈ m, e ∈ s.active dev) :
    Triple (Ticking now h s) (tickActive now clock h dev m) (fun _ => Ticking now h s)
      (Ticking now h s) := by
  refine Triple.forEach fun e he => .ite (fun _ => .pure fun _ ht => ht) fun _ =>
    .ite (fun hdue => ?_) fun _ => .pure fun _ ht => ht
  intro s' ht
  obtain ⟨htext, htime⟩ := hs.entries dev e (hm e he)
  obtain ⟨name, time⟩ := e
  rcases htext with ⟨r, rfl⟩ | ⟨t, rfl⟩
  case inr =>
    -- `resolve` raises on its first query
    exact ht
  obtain ⟨s'', hrun, hres⟩ := resolve_spec ht.tracked.alerts dev r now clock
  rw [hrun]
  refine ht.resolve (fun a ha hlive => ?_) hres
  simp only [AlertRow.live, decide_eq_true_eq] at hlive
  obtain ⟨rfl, hrule, hopen⟩ := hlive
  exact cleared_of_old hs hreports hhold ha hopen hrule fun o ho =>
    le_trans (htime r rfl o ho) (old_of_le hdue)

/-- A whole `tick`: the passes over the memory and over the rows. -/
theorem ticking_tick (hs : Tracked s) (hreports : Reports s now) (hhold : s.hold = .ok h)
    (clock : F) : Ticking now h s (tick now clock s).2 := by
  have hloops : Triple (Ticking now h s) (do
      Proc.forEach s.devices fun e => do
        let d ← st e.1
        tickActive now clock h e.1 d.active
      let s ← Proc.get
      Proc.forEach (s.db.openAlerts 1000) (tickSweep now clock h))
      (fun _ => Ticking now h s) (Ticking now h s) := by
    refine .bind (Q := fun _ => Ticking now h s) (.forEach fun e _ => ?_) fun _ => ?_
    · refine .bind (Q := fun d s' => Ticking now h s s' ∧ ∀ x ∈ d.active, x ∈ s.active e.1) ?_
        fun d => ?_
      · intro s' ht
        obtain ⟨d, D, hst, hd, hD⟩ := st_spec e.1 s'
        rw [hst]
        refine ⟨ht.of_active hD, fun x hx => ht.active e.1 x (hd ▸ hx)⟩
      · rintro s' ⟨ht, hsub⟩
        exact ticking_tickActive hs hreports hhold clock e.1 hsub s' ht
    · refine .bind (Q := fun s₁ s' => s₁ = s' ∧ Ticking now h s s') (.get fun _ ht => ⟨rfl, ht⟩)
        fun s₁ => ?_
      rintro s' ⟨rfl, ht⟩
      refine Triple.forEach (P := Ticking now h s) (fun a ha => ?_) s₁ ht
      refine ticking_tickSweep hs hreports hhold clock ?_
      have hmem := List.mem_of_mem_take ha
      rw [List.mem_filter, List.mem_reverse] at hmem
      -- an alert that is unresolved still is as it was before the tick
      obtain ⟨b, hb, -, -, rfl | ⟨-, hresolved, -⟩⟩ := ht.rows a hmem.1
      · exact ⟨hb, hmem.2⟩
      · have hopen := hmem.2
        rw [hresolved] at hopen
        cases hopen
  have hrun : tick now clock s = _ := (bind_run_ok (get_run s)).trans (bind_run_ok
    (show (ofExcept s.hold : EngineM F F) s = (.ok h, s) by rw [hhold]; rfl))
  rw [hrun]
  exact hloops.state (.refl hs)

end Tick

/-! ## Runs -/

section Run

variable {s : Engine F}

section Steps

variable [Preorder F]

/-- A change of the number of the input. -/
theorem Tracked.newSample (h : Tracked s) : Tracked (newSample s).2 :=
  h.quiet h.alerts (moves_of_eq rfl) (fun _ => rfl)
    (fun _ _ _ => ⟨fun h => ⟨h.mem, h.deviceId, h.rule, h.cond⟩,
      fun h => ⟨h.mem, h.deviceId, h.rule, h.cond⟩⟩)
    (fun o ho => Nat.le_succ_of_le (h.samples o ho)) (Nat.le_refl _)

/-- Other tables, the rules, the caches and acknowledgements. -/
theorem Tracked.sameMemory {s' : Engine F} (h : Tracked s) (halerts : s'.db.AlertsOk)
    (hrows : ∀ a' ∈ s'.db.alerts, ∃ a ∈ s.db.alerts, a.Moves a')
    (hdevices : s'.devices = s.devices) (hobs : s'.observed = s.observed)
    (hsamples : s'.samples = s.samples) (hborn : s'.born = s.born) : Tracked s' := by
  refine h.quiet halerts hrows (fun dev => by rw [active, hdevices, active])
    (fun _ _ _ => ⟨fun h => ⟨hobs ▸ h.mem, h.deviceId, h.rule, h.cond⟩,
      fun h => ⟨hobs ▸ h.mem, h.deviceId, h.rule, h.cond⟩⟩) ?_ (Nat.le_of_eq hborn.symm)
  rw [hobs, hsamples]
  exact h.samples

/-- A restart empties the `active` maps: all that was seen is of an earlier process. -/
theorem Tracked.restart (h : Tracked s) : Tracked (restart s).2 where
  alerts := h.alerts
  samples := h.samples
  distinct _ := List.nodup_nil
  entries _ _ he := absurd he List.not_mem_nil
  lost _ _ _ _ _ _ o ho := h.samples o ho.mem
  opened a ha r hr := by
    obtain ⟨o, ho⟩ := h.opened a ha r hr
    exact ⟨o, ho.mem, ho.deviceId, ho.rule, ho.cond⟩

theorem tracked_init : Tracked (init (F := F) {}) where
  alerts := Database.alertsOk_empty
  samples _ h := absurd h List.not_mem_nil
  distinct _ := List.nodup_nil
  entries _ _ he := absurd he List.not_mem_nil
  lost _ h := absurd h List.not_mem_nil
  opened _ h := absurd h List.not_mem_nil

/-- `on_online` resolves the offline rule. -/
theorem tracked_onOnline (h : Tracked s) (dev : String) (now clock : F) :
    Tracked (onOnline dev now clock s).2 ∧ SameRules s (onOnline dev now clock s).2 := by
  rw [onOnline, bind_run_ok (get_run s)]
  split
  · obtain ⟨s', hrun, hres⟩ := resolve_spec h.alerts dev "offline" now clock
    rw [hrun]
    exact ⟨h.resolve hres, hres.same⟩
  · exact ⟨h, rfl, rfl⟩

end Steps

/-- A `resolve_after_s` that is no number: the tick raises and does nothing. -/
theorem tick_of_hold_error {e : PyError} (hhold : s.hold = .error e) (now clock : F) :
    tick now clock s = (.error e, s) := by
  rw [tick, bind_run_ok (get_run s), bind_run_error (by rw [hhold]; rfl)]

variable [AddCommGroup F] [LinearOrder F]

/-- The invariant after a `tick`. -/
theorem tracked_tick [IsOrderedAddMonoid F] [ExactTime F] (h : Tracked s) (now clock : F)
    (hreports : Reports s now) :
    Tracked (tick now clock s).2 ∧ SameRules s (tick now clock s).2 := by
  rcases hhold : s.hold with e | hold
  · rw [tick_of_hold_error hhold]
    exact ⟨h, rfl, rfl⟩
  · have ht := ticking_tick h hreports hhold clock
    exact ⟨ht.tracked, ht.same⟩

/-- Times do not decrease: no input is earlier than an observation made so far. -/
def InOrder (s : Engine F) : EngineEvent F → Prop
  | .telemetry _ _ now _ _ => Upto now s
  | .comm _ _ now _ => Upto now s
  | .offline _ now _ => Upto now s
  | _ => True

variable [PyText F]

/-- The devices report at every tick, and rules have texts for names. -/
def ReportsAt (s : Engine F) : EngineEvent F → Prop
  | .tick now _ => Reports s now
  | .setRules rules => NamesOk IsText rules
  | _ => True

/-- Every alert the tick resolves was clear for the hold time, and seen to be. -/
def ResolvesCleared (s : Engine F) (now clock : F) : Prop :=
  ∀ a ∈ s.db.alerts, a.status.unresolved →
    ∀ a' ∈ (step s (.tick now clock)).db.alerts, a'.id = a.id → a'.status = .resolved →
      ∃ h r, s.hold = .ok h ∧ a.rule = some r ∧ Cleared s a.deviceId r now h

variable [IsOrderedAddMonoid F] [ExactTime F]

/-- One step of a run in order whose devices report. -/
theorem step_tracked {e : EngineEvent F} (horder : InOrder s e) (hreports : ReportsAt s e)
    (h : Tracked s ∧ RulesNamed IsText s) : Tracked (step s e) ∧ RulesNamed IsText (step s e) := by
  obtain ⟨h, hnamed⟩ := h
  -- a sample: every `mark` in it is tracked
  have htracks : ∀ now s', Upto now s → Tracks now (newSample s).2 s' →
      Tracked s' ∧ RulesNamed IsText s' := fun now s' hnow ht =>
    ⟨(ht.2 ⟨h.newSample, hnow⟩).1, hnamed.same ht.1⟩
  cases e with
  | telemetry dev t now clock loss =>
    exact htracks now _ horder ((sampleFrame_tracks dev now clock).onTelemetry t loss _
      hnamed.inForce)
  | comm dev loss now clock =>
    refine htracks now _ horder (Keeps.bind (m := onComm dev loss now clock) ?_
      (fun _ => Keeps.pure _) _)
    exact (sampleFrame_tracks dev now clock).onComm loss
  | offline dev now clock =>
    refine htracks now _ horder (Keeps.bind (m := onOffline dev now clock) ?_
      (fun _ => Keeps.pure _) _)
    exact tracks_onOffline dev now clock
  | online dev now clock =>
    have hback := tracked_onOnline h dev now clock
    rw [step, handle, bind_pure_state]
    exact ⟨hback.1, hnamed.same hback.2⟩
  | tick now clock =>
    -- `tick` closes what the engine has seen clear for the hold time
    have htick := tracked_tick h now clock hreports
    rw [step, handle, bind_pure_state]
    exact ⟨htick.1, hnamed.same htick.2⟩
  | setRules rules =>
    have hset : Tracked (setRules rules s).2 :=
      h.sameMemory (h.alerts.of_alerts_eq rfl rfl) (moves_of_eq rfl) rfl rfl rfl rfl
    exact ⟨hset, rulesNamed_setRules isText_str hreports⟩
  | invalidateConfig dev =>
    exact ⟨h.sameMemory h.alerts (moves_of_eq rfl) rfl rfl rfl rfl, hnamed.same ⟨rfl, rfl⟩⟩
  | ackAlert aid clock =>
    have hack := Database.Closes.ackAlert h.alerts.toAlertsKeyed aid clock
    exact ⟨h.sameMemory (hack.alertsOk h.alerts) hack.exists_moves rfl rfl rfl rfl,
      hnamed.same ⟨rfl, Database.ackAlert_rules s.db aid clock⟩⟩
  | restart =>
    have hinit := rulesNamed_init isText_str hnamed.stored
    exact ⟨h.restart, hinit.inForce, hinit.stored⟩
  | write db =>
    have hwrite : Tracked (step s (.write db)) :=
      h.sameMemory (h.alerts.of_alerts_eq rfl rfl) (moves_of_eq rfl) rfl rfl rfl rfl
    exact ⟨hwrite, hnamed.inForce, hnamed.stored⟩

/-- In a run in order whose devices report and whose rules have texts for
    names, each tick only resolves alerts that were clear for the hold time and
    were seen to be. -/
theorem run_resolvesCleared {events : List (EngineEvent F)}
    (horder : AllSteps step InOrder (init {}) events)
    (hreports : AllSteps step ReportsAt (init {}) events)
    {before after : List (EngineEvent F)} {now clock : F}
    (hevents : events = before ++ .tick now clock :: after) :
    ResolvesCleared (run before) now clock := by
  subst hevents
  have horder := (AllSteps.append.mp horder).1
  obtain ⟨hbefore, hafter⟩ := AllSteps.append.mp hreports
  -- the invariant at the tick, from the steps before it
  have hsteps := horder.and hbefore
  obtain ⟨hs, -⟩ := hsteps.invariant (P := fun s => Tracked s ∧ RulesNamed IsText s)
    (fun s e he hs => step_tracked he.1 he.2 hs)
    ⟨tracked_init, rulesNamed_init isText_str nofun⟩
  have hrep : Reports (run before) now := hafter.1
  intro a ha hopen a' ha' hid hresolved
  rw [step, handle, bind_pure_state] at ha'
  -- without a hold time that is a number the tick raises and closes nothing
  rcases hhold : (run before).hold with e | h
  · rw [tick_of_hold_error hhold] at ha'
    rw [hs.alerts.eq_of_id ha' ha hid] at hresolved
    rw [hresolved] at hopen
    cases hopen
  · have ht := ticking_tick hs hrep hhold clock
    obtain ⟨b, hb, -, -, heq | ⟨hid', -, hcleared⟩⟩ := ht.rows a' ha'
    · subst heq
      rw [hs.alerts.eq_of_id hb ha hid] at hresolved
      rw [hresolved] at hopen
      cases hopen
    · have hba := hs.alerts.eq_of_id hb ha (hid'.symm.trans hid)
      subst hba
      obtain ⟨r, hr⟩ := Option.ne_none_iff_exists'.mp (hs.alerts.named b ha)
      exact ⟨h, r, rfl, hr, hcleared r hr⟩

end Run

/-! ## Runs with default rules -/

/-- A sample that is too hot, or not. -/
def sampleAt (now : ℚ) (temp : ℚ) : EngineEvent ℚ :=
  .telemetry "ECU-1" [("temp_c", .float temp)] now now none

/-- The device cools down before the tick. -/
def coolRun : List (EngineEvent ℚ) := [sampleAt 1 95, sampleAt 2 40]

/-- The run reports every second until the tick. -/
theorem coolRun_reports : Reports (run coolRun) 12 := by
  have hrows : ∀ a ∈ (run coolRun).db.alerts, a.deviceId = "ECU-1" ∧ a.rule = some "temp_high" := by
    decide +kernel
  have hfirst : ∀ o ∈ (run coolRun).observed, o.cond = true → o.sample = 1 := by decide +kernel
  have hsecond : ∃ o ∈ (run coolRun).observed, o.deviceId = "ECU-1" ∧
      (o.rule == .str "temp_high") = true ∧ o.sample = 2 := by decide +kernel
  have hborn : (run coolRun).born = 0 := by decide +kernel
  constructor
  · intro h _ a ha _ r hr o ho
    obtain ⟨hdev, hrule⟩ := hrows a ha
    cases hrule.symm.trans hr
    obtain ⟨o', hmem, hdev', hrule', hsample⟩ := hsecond
    refine .inr ⟨_, o', ⟨hmem, hdev'.trans hdev.symm, (Json.exact_str _ _).mp hrule', rfl⟩, ?_⟩
    rw [hfirst o ho.mem ho.cond, hsample]
    exact Nat.lt_succ_self 1
  · intro h _ a ha _ r hr o ho hold
    rw [hborn, hfirst o ho.mem ho.cond] at hold
    exact absurd hold (by decide)

/-- The tick ten seconds after the cool sample resolves the alert. -/
theorem coolRun_resolvesCleared : ResolvesCleared (run coolRun) 12 12 ∧
    (step (run coolRun) (.tick 12 12)).db.alerts.map AlertRow.status = [.resolved] := by
  have hfirst : ∀ o ∈ (init (F := ℚ) {}).observed, o.time ≤ 1 := by decide +kernel
  have hsecond : ∀ o ∈ (step (init {}) (sampleAt 1 95)).observed, o.time ≤ 2 := by decide +kernel
  have horder : AllSteps step InOrder (init {}) (coolRun ++ [.tick 12 12]) :=
    ⟨hfirst, hsecond, trivial, trivial⟩
  have hreports : AllSteps step ReportsAt (init {}) (coolRun ++ [.tick 12 12]) :=
    ⟨trivial, trivial, coolRun_reports, trivial⟩
  exact ⟨run_resolvesCleared horder hreports rfl, by decide +kernel⟩

/-- The device falls silent after a hot sample. -/
def silentRun : List (EngineEvent ℚ) := [sampleAt 1 95]

/-- The device is hot throughout; the process restarts. -/
def restartRun : List (EngineEvent ℚ) := [sampleAt 1 95, sampleAt 9 95, .restart]

/-- One row resolved while its condition was not seen clear is enough. -/
theorem not_resolvesCleared {s : Engine ℚ} {now clock : ℚ} (dev r : String)
    (hresolves : ∃ a ∈ s.db.alerts, a.status.unresolved ∧ a.deviceId = dev ∧ a.rule = some r ∧
      ∃ a' ∈ (step s (.tick now clock)).db.alerts, a'.id = a.id ∧ a'.status = .resolved)
    (h : ∀ hold, s.hold = .ok hold → ¬ Cleared s dev r now hold) :
    ¬ ResolvesCleared s now clock := by
  intro hall
  obtain ⟨a, ha, hopen, rfl, hr, a', ha', hid, hresolved⟩ := hresolves
  obtain ⟨hold, r', hhold, hr', hc⟩ := hall a ha hopen a' ha' hid hresolved
  cases hr.symm.trans hr'
  exact h hold hhold hc

/-- Ten seconds of silence after a true sample resolve the alert, though no
    sample found the condition false; and so does a restart three seconds after
    one, though the condition held ever since. -/
theorem silence_and_restart_resolve :
    ¬ ResolvesCleared (run silentRun) 12 12 ∧ ¬ ResolvesCleared (run restartRun) 12 12 := by
  constructor
  · refine not_resolvesCleared "ECU-1" "temp_high" (by decide +kernel) fun hold _ hc => ?_
    obtain ⟨o, ho, -⟩ := hc.seenFalse
    have hnone : ∀ o ∈ (run silentRun).observed, (o.rule == .str "temp_high") = true →
        o.cond = true := by decide +kernel
    have htrue := hnone o ho.mem ((Json.exact_str _ _).mpr ho.rule)
    rw [ho.cond] at htrue
    cases htrue
  · refine not_resolvesCleared "ECU-1" "temp_high" (by decide +kernel) fun hold hhold hc => ?_
    have hlate : ∃ o ∈ (run restartRun).observed, o.deviceId = "ECU-1" ∧
        (o.rule == .str "temp_high") = true ∧ o.cond = true ∧ o.time = 9 := by decide +kernel
    obtain ⟨o, hmem, hdev, hrule, hcond, htime⟩ := hlate
    have hten : (run restartRun).hold = .ok 10 := by decide +kernel
    refine hc.notTrue o ⟨hmem, hdev, (Json.exact_str _ _).mp hrule, hcond⟩ ?_
    cases hten.symm.trans hhold
    rw [htime]
    exact ⟨by decide +kernel, by decide +kernel⟩

end Engine

end EcuTelemetry.Backend
