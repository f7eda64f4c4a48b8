/-
  EcuTelemetry.Backend.RuleSafety

  Rule documents and whole runs: while every document that is put meets `RulesOk`,
  `on_telemetry` and `tick` return.

  `Ready` is the invariant: the rules in force are those of the stored document,
  the variances have a root, the names in memory can be looked up.  `on_telemetry`
  keeps it, and raises only on a number that no float holds.
-/

import EcuTelemetry.Backend.OwnEvents
import EcuTelemetry.Backend.RuleDocuments

namespace EcuTelemetry.Backend

open Proc Protocol

variable {F : Type} [PyFloat F] [PyText F]

namespace Engine

/-! ## The invariant -/

/-- A variance has a root, a name can be looked up. -/
structure DeviceOk (d : DeviceState F) : Prop where
  var : ∀ e ∈ d.ewma, PyFloat.lt e.2.var (PyFloat.ofRat 0) = false
  active : ∀ e ∈ d.active, e.1.Storable

/-- The engine evaluates these rules, now and after a restart. -/
structure Ready (r : Dict String (Json F)) (s : Engine F) : Prop where
  rules : s.rules = r
  stored : ∀ key, Dict.get? (mergeRules (s.db.rules.getD [])) key = Dict.get? r key
  config : ∀ e ∈ s.configCache, IsConfig e.2
  rows : ∀ row ∈ s.db.configs, RowOk row
  devices : ∀ e ∈ s.devices, DeviceOk e.2

section Ready

variable {r : Dict String (Json F)} {E : Engine F → Prop} {dev : String}

omit [PyText F] in
theorem Ready.congr {s s' : Engine F} (h : Ready r s) (hrules : s'.rules = s.rules)
    (hstored : s'.db.rules = s.db.rules) (hconfig : s'.configCache = s.configCache)
    (hrows : s'.db.configs = s.db.configs) (hdevices : ∀ e ∈ s'.devices, DeviceOk e.2) :
    Ready r s' :=
  ⟨hrules.trans h.rules, hstored ▸ h.stored, hconfig ▸ h.config, hrows ▸ h.rows, hdevices⟩

omit [PyText F] in
theorem deviceOk_new : DeviceOk ({} : DeviceState F) := ⟨nofun, nofun⟩

omit [PyText F] in
/-- Reading the record of a device. -/
theorem ready_st : Triple (Ready r) (st dev) (fun d s => DeviceOk d ∧ Ready r s) E := by
  intro s h
  rw [st]
  rcases hget : Dict.get? s.devices dev with _ | d
  · refine ⟨deviceOk_new, h.congr rfl rfl rfl rfl fun e he => ?_⟩
    rcases Dict.mem_set (.of_lawful dev) he with rfl | he
    · exact deviceOk_new
    · exact h.devices e he
  · exact ⟨h.devices _ (Dict.get?_mem (.of_lawful dev) hget), h⟩

omit [PyText F] in
theorem ready_modifySt {f : DeviceState F → DeviceState F} (hf : ∀ d, DeviceOk d → DeviceOk (f d)) :
    Triple (Ready r) (modifySt dev f) (fun _ => Ready r) E := by
  refine Triple.bind ready_st fun d => Triple.of_and fun hd => Triple.modify fun s h => ?_
  refine h.congr rfl rfl rfl rfl fun e he => ?_
  rcases Dict.mem_set (.of_lawful dev) he with rfl | he
  · exact hf d hd
  · exact h.devices e he

omit [PyText F] in
theorem ready_observe (rule : Json F) (cond : Bool) (now : F) :
    Triple (Ready r) (observe dev rule cond now) (fun _ => Ready r) E :=
  Triple.modify fun _ h => h.congr rfl rfl rfl rfl h.devices

omit [PyText F] in
/-- What SQLite takes, or may refuse. -/
theorem ready_sqlText {v : Json F} (hv : v.Storable ∨ E = Ready r) :
    Triple (Ready r) (Proc.ofExcept v.sqlText) (fun _ => Ready r) E := by
  refine Triple.ofExcept (fun _ _ _ h => h) fun e he s h => ?_
  rcases hv with ⟨text, htext⟩ | rfl
  · rw [he] at htext
    cases htext
  · exact h

omit [PyText F] in
/-- An alert is opened unless SQLite refuses its severity or its message. -/
theorem ready_openIfNone (rule metric : Option String) (value : Option F)
    {severity message : Json F} (h : severity.Storable ∧ message.Storable ∨ E = Ready r)
    (clock : F) :
    Triple (Ready r) (openIfNone dev rule metric value severity message clock) (fun _ => Ready r)
      E := by
  refine Triple.bind (Q := fun _ => Ready r) (Triple.get fun _ h => h) fun s => ?_
  refine Triple.ite (fun _ => ?_) fun _ => Triple.pure fun _ h => h
  refine (ready_sqlText (h.imp_left And.left)).bind fun sev =>
    (ready_sqlText (h.imp_left And.right)).bind fun msg => ?_
  exact Triple.modify fun s h => h.congr rfl rfl rfl rfl h.devices

omit [PyText F] in
/-- A rule is marked: where it is true, its name, severity and message go into the
    database. -/
theorem ready_mark {rule severity message : Json F} {cond : Bool} (h : cond = true →
      rule.hashable = true ∧ rule.Storable ∧
        (severity.Storable ∧ message.Storable ∨ E = Ready r)) (now : F)
    (metric : Option String) (value : Option F) (clock : F) :
    Triple (Ready r) (mark dev rule cond now metric value severity message clock)
      (fun _ => Ready r) E := by
  refine Triple.bind (Q := fun _ => Ready r)
    (ready_st.weaken (fun _ h => h) (fun _ _ h => h.2) fun _ h => h) fun _ => ?_
  refine (ready_observe rule cond now).bind fun _ => ?_
  refine Triple.ite (fun hcond => ?_) fun _ => Triple.pure fun _ h => h
  obtain ⟨hhash, hname, hbound⟩ := h hcond
  obtain ⟨text, htext⟩ := hname
  refine Triple.ite (fun _ => ?_) fun hnot => absurd hhash hnot
  refine Triple.bind (ready_modifySt fun d hd => ⟨hd.var, fun e he => ?_⟩) fun _ => ?_
  · rcases Dict.fst_mem_set he with heq | ⟨e', he', heq⟩
    · rw [heq]
      exact ⟨text, htext⟩
    · rw [heq]
      exact hd.active e' he'
  · exact Triple.ok_bind htext (ready_openIfNone text metric value hbound clock)

end Ready

/-! ## Statistics -/

/-- Averages and rate histories change under these keys only. -/
structure Quiet (dev : String) (avg hist : String → Prop) (s s' : Engine F) : Prop where
  averages : ∀ key, ¬ avg key →
      Dict.get? (s'.record dev).ewma key = Dict.get? (s.record dev).ewma key
  histories : ∀ key, ¬ hist key →
    Dict.get? (s'.record dev).rateHist key = Dict.get? (s.record dev).rateHist key

section Quiet

variable {dev : String} {avg hist : String → Prop}

omit [PyFloat F] [PyText F] in
theorem Quiet.of_record {s s' : Engine F} (h : s'.record dev = s.record dev) :
    Quiet dev avg hist s s' := by
  constructor <;> intro key _ <;> rw [h]

instance : IsPreorder (Engine F) (Quiet dev avg hist) where
  refl _ := .of_record rfl
  trans _ _ _ h h' := ⟨fun key hkey => (h'.averages key hkey).trans (h.averages key hkey),
    fun key hkey => (h'.histories key hkey).trans (h.histories key hkey)⟩

omit [PyFloat F] [PyText F] in
/-- A record that is only made changes none. -/
theorem record_st (dev other : String) (s : Engine F) :
    (st other s).2.record dev = s.record dev := by
  obtain ⟨D, hrun, hself, hne, -⟩ := st_run other s
  rw [hrun]
  by_cases hdev : dev = other
  · subst hdev
    rw [record, hself]
    rfl
  · exact congrArg (fun d => Option.getD d {}) (hne dev hdev)

omit [PyFloat F] [PyText F] in
/-- A write changes the record of its device. -/
theorem record_modifySt (dev other : String) (f : DeviceState F → DeviceState F) (s : Engine F) :
    (modifySt other f s).2.record dev = if dev = other then f (s.record dev) else s.record dev := by
  obtain ⟨D, hrun, hself, hne, -⟩ := modifySt_run other f s
  rw [hrun]
  split
  · next hdev =>
    subst hdev
    rw [record, hself]
    rfl
  · next hdev => exact congrArg (fun d => Option.getD d {}) (hne dev hdev)

omit [PyFloat F] [PyText F] in
theorem keeps_quiet_st (other : String) : Keeps (Quiet dev avg hist) (st (F := F) other) :=
  fun s => .of_record (record_st dev other s)

omit [PyFloat F] [PyText F] in
/-- A write that leaves the averages and histories watched. -/
theorem keeps_quiet_modifySt (other : String) {f : DeviceState F → DeviceState F}
    (hewma : ∀ d key, ¬ avg key → Dict.get? (f d).ewma key = Dict.get? d.ewma key)
    (hhist : ∀ d key, ¬ hist key → Dict.get? (f d).rateHist key = Dict.get? d.rateHist key) :
    Keeps (Quiet dev avg hist) (modifySt other f) := by
  intro s
  constructor <;> intro key hkey <;> rw [record_modifySt]
  · split
    · exact hewma _ key hkey
    · rfl
  · split
    · exact hhist _ key hkey
    · rfl

omit [PyText F] in
/-- `_mark` writes the memory and the alerts. -/
theorem keeps_quiet_mark (other : String) (rule : Json F) (cond : Bool) (now : F)
    (metric : Option String) (value : Option F) (severity message : Json F) (clock : F) :
    Keeps (Quiet dev avg hist) (mark other rule cond now metric value severity message clock) := by
  refine (keeps_quiet_st other).bind fun _ =>
    Keeps.bind (Keeps.modify fun _ => .of_record rfl) fun _ => ?_
  refine Keeps.ite (fun _ => Keeps.ite (fun _ => ?_) fun _ => Keeps.raise _) fun _ => Keeps.pure ()
  have hactive : Keeps (Quiet dev avg hist)
      (modifySt other fun d : DeviceState F => { d with active := Dict.set d.active rule now }) :=
    keeps_quiet_modifySt other (fun _ _ _ => rfl) fun _ _ _ => rfl
  refine hactive.bind fun _ => (Keeps.ofExcept _).bind fun _ => Keeps.get.bind fun s => ?_
  exact Keeps.when fun _ => (Keeps.ofExcept _).bind fun _ => (Keeps.ofExcept _).bind fun _ =>
    Keeps.modify fun _ => .of_record rfl

omit [PyText F] in
theorem keeps_quiet_configFor (other : String) :
    Keeps (Quiet dev avg hist) (configFor (F := F) other) := by
  intro s
  rw [configFor]
  split <;> exact .of_record rfl

omit [PyText F] in
/-- `resolve` writes the memory and the alerts too. -/
theorem keeps_quiet_resolve (now clock : F) (other : String) (rule : Json F) :
    Keeps (Quiet dev avg hist) (resolve other rule now clock) := by
  have hpop : Keeps (Quiet dev avg hist)
      (modifySt other fun d : DeviceState F => { d with active := Dict.pop d.active rule }) :=
    keeps_quiet_modifySt other (fun _ _ _ => rfl) fun _ _ _ => rfl
  refine (Keeps.ofExcept _).bind fun _ => Keeps.get.bind fun s => hpop.bind fun _ => ?_
  split
  · exact Keeps.pure ()
  · exact Keeps.modify fun _ => .of_record rfl

omit [PyText F] in
theorem keeps_quiet_onOffline (other : String) (now clock : F) :
    Keeps (Quiet dev avg hist) (onOffline other now clock) :=
  Keeps.get.bind fun _ => (Keeps.ofExcept _).bind fun _ => Keeps.ite
    (fun _ => (Keeps.ofExcept _).bind fun _ => keeps_quiet_mark other _ _ _ _ _ _ _ _)
    fun _ => Keeps.pure ()

theorem keeps_quiet_onComm (other : String) (loss now clock : F) :
    Keeps (Quiet dev avg hist) (onComm other loss now clock) := by
  refine Keeps.get.bind fun _ => (Keeps.ofExcept _).bind fun thr => ?_
  split
  · exact Keeps.pure ()
  · exact (Keeps.ofExcept _).bind fun _ => (Keeps.ofExcept _).bind fun _ =>
      keeps_quiet_mark other _ _ _ _ _ _ _ _

/-- The record of a device stays. -/
def SameRecord (dev : String) (s s' : Engine F) : Prop :=
  s'.rules = s.rules ∧ s'.record dev = s.record dev

omit [PyFloat F] [PyText F] in
instance : IsPreorder (Engine F) (SameRecord dev) where
  refl _ := ⟨rfl, rfl⟩
  trans _ _ _ h h' := ⟨h'.1.trans h.1, h'.2.trans h.2⟩

omit [PyFloat F] [PyText F] in
/-- A write for another device. -/
theorem keeps_sameRecord_modifySt {other : String} (hne : dev ≠ other)
    (f : DeviceState F → DeviceState F) : Keeps (SameRecord dev) (modifySt other f) := by
  intro s
  have hrecord := record_modifySt dev other f s
  rw [if_neg hne] at hrecord
  obtain ⟨D, hrun, -⟩ := modifySt_run other f s
  rw [hrun] at hrecord ⊢
  exact ⟨rfl, hrecord⟩

omit [PyText F] in
/-- A sample of another device. -/
theorem sampleFrame_sameRecord {other : String} (hne : dev ≠ other) (now clock : F) :
    SampleFrame (SameRecord dev) (fun _ => True) other now clock where
  rules _ _ h := h.1
  str _ := trivial
  configCache _ _ := ⟨rfl, rfl⟩
  hwCache _ _ := ⟨rfl, rfl⟩
  st s := by
    have hrecord := record_st dev other s
    obtain ⟨D, hrun, -⟩ := st_run other s
    rw [hrun] at hrecord ⊢
    exact ⟨rfl, hrecord⟩
  modifySt f _ := keeps_sameRecord_modifySt hne f
  observe _ := Keeps.modify fun _ => ⟨rfl, rfl⟩
  mark rule cond metric value severity message _ := by
    -- `_mark` of the other device touches its own record, and the alerts
    have hst : Keeps (SameRecord dev) (st (F := F) other) := fun s => by
      have hrecord := record_st dev other s
      obtain ⟨D, hrun, -⟩ := st_run other s
      rw [hrun] at hrecord ⊢
      exact ⟨rfl, hrecord⟩
    refine hst.bind fun _ => Keeps.bind (Keeps.modify fun _ => ⟨rfl, rfl⟩) fun _ => ?_
    refine Keeps.ite (fun _ => Keeps.ite (fun _ => ?_) fun _ => Keeps.raise _) fun _ => Keeps.pure _
    refine (keeps_sameRecord_modifySt hne _).bind fun _ => (Keeps.ofExcept _).bind fun _ =>
      Keeps.get.bind fun _ => ?_
    exact Keeps.when fun _ => (Keeps.ofExcept _).bind fun _ => (Keeps.ofExcept _).bind fun _ =>
      Keeps.modify fun _ => ⟨rfl, rfl⟩

end Quiet

/-- Ready, with the statistics of a device as they were at the start of the sample
    but for those under the keys. -/
def Within (r : Dict String (Json F)) (dev : String) (avg hist : String → Prop) (s₀ s : Engine F) :
    Prop := Quiet dev avg hist s₀ s ∧ Ready r s

section Within

variable {r : Dict String (Json F)} {E : Engine F → Prop} {dev : String} {avg hist : String → Prop}
  {s₀ : Engine F}

omit [PyText F] in
theorem Within.start {s : Engine F} (h : Ready r s) : Within r dev avg hist s s :=
  ⟨refl_of (Quiet dev avg hist) s, h⟩

omit [PyText F] in
/-- What keeps the engine ready and the statistics quiet. -/
theorem within_of {α : Type} {m : EngineM F α} (h : Triple (Ready r) m (fun _ => Ready r) E)
    (hkeep : Keeps (Quiet dev avg hist) m) :
    Triple (Within r dev avg hist s₀) m (fun _ => Within r dev avg hist s₀) E :=
  h.frame hkeep fun _ _ h' h => trans_of (Quiet dev avg hist) h h'

omit [PyText F] in
theorem within_st : Triple (Within r dev avg hist s₀) (st dev)
    (fun d s => DeviceOk d ∧ Within r dev avg hist s₀ s) E :=
  (Triple.frame ready_st (keeps_quiet_st dev) fun _ _ h' h =>
    trans_of (Quiet dev avg hist) h h').weaken
    (fun _ h => h) (fun _ _ h => ⟨h.2.1, h.1, h.2.2⟩) fun _ h => h

omit [PyText F] in
/-- `_mark` does not raise where SQLite takes what it binds. -/
theorem within_mark {rule severity message : Json F} {cond : Bool}
    (h : cond = true → rule.hashable = true ∧ rule.Storable ∧ severity.Storable ∧
      message.Storable) (now : F) (metric : Option String) (value : Option F) (clock : F) :
    Triple (Within r dev avg hist s₀) (mark dev rule cond now metric value severity message clock)
      (fun _ => Within r dev avg hist s₀) E := by
  refine within_of (ready_mark (fun hcond => ?_) now metric value clock)
    (keeps_quiet_mark dev rule cond now metric value severity message clock)
  exact ⟨(h hcond).1, (h hcond).2.1, .inl (h hcond).2.2⟩

omit [PyText F] in
theorem within_observe (rule : Json F) (cond : Bool) (now : F) :
    Triple (Within r dev avg hist s₀) (observe dev rule cond now)
      (fun _ => Within r dev avg hist s₀) E :=
  within_of (ready_observe rule cond now) (Keeps.modify fun _ => .of_record rfl)

omit [PyText F] in
theorem within_setHistory {key : String} (hkey : hist key) (h : List (F × F)) :
    Triple (Within r dev avg hist s₀)
      (modifySt dev fun d => { d with rateHist := Dict.set d.rateHist key h })
      (fun _ => Within r dev avg hist s₀) E := by
  refine within_of (ready_modifySt fun d hd => ⟨hd.var, hd.active⟩)
    (keeps_quiet_modifySt dev (fun _ _ _ => rfl) fun d key' hkey' => ?_)
  exact Dict.get?_set_ne (.of_lawful key) (.of_lawful key') fun heq => hkey' (heq ▸ hkey)

omit [PyText F] in
theorem DeviceOk.setAverage {d : DeviceState F} (hd : DeviceOk d) {e : Ewma F}
    (he : PyFloat.lt e.var (PyFloat.ofRat 0) = false) (key : String) :
    DeviceOk { d with ewma := Dict.set d.ewma key e } := by
  refine ⟨fun e' he' => ?_, hd.active⟩
  rcases Dict.mem_set (.of_lawful key) he' with rfl | he'
  · exact he
  · exact hd.var e' he'

omit [PyText F] in
theorem within_setAverage {key : String} (hkey : avg key) {e : Ewma F}
    (he : PyFloat.lt e.var (PyFloat.ofRat 0) = false) :
    Triple (Within r dev avg hist s₀)
      (modifySt dev fun d => { d with ewma := Dict.set d.ewma key e })
      (fun _ => Within r dev avg hist s₀) E := by
  refine within_of (ready_modifySt fun d hd => hd.setAverage he key)
    (keeps_quiet_modifySt dev (fun d key' hkey' => ?_) fun _ _ _ => rfl)
  exact Dict.get?_set_ne (.of_lawful key) (.of_lawful key') fun heq => hkey' (heq ▸ hkey)

omit [PyText F] in
/-- The rules in force are `r`. -/
theorem within_get {α : Type} {f : Engine F → EngineM F α} {Q : α → Engine F → Prop}
    (h : ∀ s, s.rules = r → Triple (Within r dev avg hist s₀) (f s) Q E) :
    Triple (Within r dev avg hist s₀) (Proc.get >>= f) Q E :=
  Triple.bind (Q := fun s₁ s => s₁.rules = r ∧ Within r dev avg hist s₀ s)
    (Triple.get fun _ h => ⟨h.2.rules, h⟩) fun s => Triple.of_and (h s)

end Within

/-! ## One sample -/

section Sample

variable {r : Dict String (Json F)} {dev : String} {t : Dict String (Json F)}
  {avg hist : String → Prop} {s₀ : Engine F}

/-- Where an exception leaves the engine: ready, and some number is out of range. -/
def OutOfRange (r t : Dict String (Json F)) (s : Engine F) : Prop := Ready r s ∧ ¬ InRange t

omit [PyFloat F] [PyText F] in
/-- A metric that can be looked up is no field, or it is one with a value. -/
theorem lookupIn_cases (ht : Sampled t) {metric : Json F} (h : metric.hashable = true) :
    metric.lookupIn t = .ok none ∨ ∃ key v, metric = .str key ∧ key ∈ SAMPLE_FIELDS ∧
      Dict.get? t key = some v ∧ metric.lookupIn t = .ok (some v) := by
  cases metric with
  | str key =>
    rcases hget : Dict.get? t key with _ | v
    · exact .inl (congrArg Except.ok hget)
    · exact .inr ⟨key, v, rfl, ht.fields key (by rw [hget]; rfl), hget, congrArg Except.ok hget⟩
  | arr xs => cases h
  | obj kvs => cases h
  | _ => exact .inl rfl

omit [PyText F] in
/-- A number of the sample as a float. -/
theorem within_toFloat {key : String} {v : Json F} (hkey : key ∈ NUMERIC_FIELDS)
    (hget : Dict.get? t key = some v) :
    Triple (Within r dev avg hist s₀) (Proc.ofExcept v.toFloat) (fun _ => Within r dev avg hist s₀)
      (OutOfRange r t) := by
  refine Triple.ofExcept (fun _ _ _ h => h) fun e he s h => ⟨h.2, fun hrange => ?_⟩
  obtain ⟨x, hx⟩ := hrange key hkey v hget
  rw [he] at hx
  cases hx

omit [PyText F] in
/-- The configuration has numbers where the rules look for them. -/
theorem within_configFor {E : Engine F → Prop} :
    Triple (Within r dev avg hist s₀) (configFor dev)
      (fun cfg s => IsConfig cfg ∧ Within r dev avg hist s₀ s) E := by
  have hready : Triple (Ready r) (configFor dev) (fun cfg s => IsConfig cfg ∧ Ready r s) E := by
    intro s h
    rw [configFor]
    rcases hget : Dict.get? s.configCache dev with _ | cfg
    · -- read from the database, and cached
      have hconfig :
          IsConfig (((s.db.currentConfig dev).map ConfigRow.asConfig).getD DEFAULT_CONFIG) := by
        rcases hrow : s.db.currentConfig dev with _ | row
        · exact .inl rfl
        · exact .inr ⟨row, h.rows row (Database.currentConfig_mem hrow).1, rfl⟩
      refine ⟨hconfig, h.rules, h.stored, fun e he => ?_, h.rows, h.devices⟩
      rcases Dict.mem_set (.of_lawful dev) he with rfl | he
      · exact hconfig
      · exact h.config e he
    · exact ⟨h.config _ (Dict.get?_mem (.of_lawful dev) hget), h⟩
  -- nothing else of the engine is touched
  refine (hready.frame (keeps_quiet_configFor dev)
    fun _ _ h' h => trans_of (Quiet dev avg hist) h h').weaken (fun _ h => h) (fun _ _ h => ?_)
      fun _ h => h
  exact ⟨h.2.1, h.1, h.2.2⟩

omit [PyText F] in
/-- A threshold that resolves for every model resolves for this one. -/
theorem within_thresholdSpec {E : Engine F → Prop} {rule : Json F}
    (h : ∀ hw, ∃ p, specFor dev hw rule = .ok p) :
    Triple (Within r dev avg hist s₀) (thresholdSpec rule dev)
      (fun p s => (∃ hw, specFor dev hw rule = .ok p) ∧ Within r dev avg hist s₀ s) E := by
  intro s hs
  obtain ⟨c, hrun⟩ := thresholdSpec_answer dev rule s
  obtain ⟨p, hp⟩ := h (s.answer dev)
  rw [hrun, hp]
  exact ⟨⟨_, hp⟩,
    trans_of (Quiet dev avg hist) hs.1 (Quiet.of_record rfl : Quiet dev avg hist s (withCache c s)),
    hs.2.congr rfl rfl rfl rfl hs.2.devices⟩

/-- A threshold of a good document. -/
theorem within_onThreshold (ht : Sampled t) {cfg : Dict String (Json F)} (hcfg : IsConfig cfg)
    (now clock : F) {rule : Json F} (hrule : ThresholdOk rule) :
    Triple (Within r dev avg hist s₀) (onThreshold dev t cfg now clock rule)
      (fun _ => Within r dev avg hist s₀) (OutOfRange r t) := by
  obtain ⟨kvs, rfl, hhash, hfield⟩ := hrule
  refine Triple.ok_bind (a := entry kvs "metric" .null) rfl ?_
  rcases lookupIn_cases ht hhash with hnone | ⟨key, v, hmetric, hkey, hget, hsome⟩
  · exact Triple.ok_bind hnone (Triple.pure fun _ h => h)
  refine Triple.ok_bind hsome ?_
  have hspec := hfield key hkey hmetric dev
  refine Triple.bind (within_thresholdSpec fun hw => ?_) fun p => Triple.of_and fun ⟨hw, hp⟩ => ?_
  · obtain ⟨spec, severity, hrun, -⟩ := hspec hw
    exact ⟨_, hrun⟩
  obtain ⟨spec, severity, hrun, hresolve⟩ := hspec hw
  obtain rfl : p = (spec, severity) := Except.ok.inj (hp.symm.trans hrun)
  obtain ⟨thr, hthr, hfires⟩ := hresolve cfg hcfg
  dsimp only
  refine Triple.ok_bind hthr ?_
  cases thr with
  | none => exact Triple.pure fun _ h => h
  | some y =>
    obtain ⟨hnumeric, hmark⟩ := hfires y rfl
    refine Triple.bind (within_toFloat hnumeric hget) fun x => ?_
    refine Triple.ok_bind (a := entry kvs "op" (.str ">")) rfl
      (Triple.ok_bind (a := Dict.get? kvs "name") rfl ?_)
    rw [hmetric]
    refine Triple.bind (within_mark (fun hcond => ?_) now _ _ clock) fun _ =>
      Triple.pure fun _ h => h
    exact hmark x hcond

/-- All thresholds. -/
theorem within_onThresholds (ht : Sampled t) {cfg : Dict String (Json F)} (hcfg : IsConfig cfg)
    (now clock : F) (hr : RulesOk r) :
    Triple (Within r dev avg hist s₀) (onThresholds dev t cfg now clock)
      (fun _ => Within r dev avg hist s₀) (OutOfRange r t) := by
  obtain ⟨xs, hiter, hxs⟩ := hr.thresholds
  refine within_get fun s hs => ?_
  rw [hs]
  refine Triple.ok_bind hiter (Triple.collect_inv fun rule hrule => ?_)
  exact within_onThreshold ht hcfg now clock (hxs rule hrule)

/-- The fault flags. -/
theorem within_onFaultFlags [IeeeFloat F] (ht : Sampled t) (now clock : F) (hr : RulesOk r) :
    Triple (Within r dev avg hist s₀) (onFaultFlags dev t now clock)
      (fun _ => Within r dev avg hist s₀) (OutOfRange r t) := by
  obtain ⟨kvs, hflags, hseverity⟩ := hr.flags
  obtain ⟨n, hn⟩ := ht.flags
  refine within_get fun s hs => ?_
  rw [hs, ← entry, hflags]
  refine Triple.ok_bind (a := entry kvs "enabled" (.bool true)) rfl
    (Triple.ite (fun henabled => ?_) fun _ => Triple.pure fun _ h => h)
  refine Triple.ok_bind (a := n) (by rw [hn]; rfl)
    (Triple.ok_bind (a := entry kvs "severity" (.obj [])) rfl ?_)
  refine Triple.collect_inv fun f hf => Triple.ite (fun _ => ?_) fun _ => ?_
  · obtain ⟨bit, hbit⟩ : ∃ x : F, PyFloat.ofInt (f.2 : Int) = .ok x := by
      refine IeeeFloat.ofInt_ok _ ?_
      simp only [FAULT_FLAGS, List.mem_cons, List.not_mem_nil, or_false] at hf
      rcases hf with rfl | rfl | rfl | rfl | rfl | rfl | rfl | rfl <;> decide
    refine Triple.ok_bind hbit (Triple.bind (within_mark (fun _ => ?_) now _ _ clock) fun _ =>
      Triple.pure fun _ h => h)
    exact ⟨rfl, Json.storable_str _, hseverity henabled f hf, Json.storable_str _⟩
  · exact (within_observe _ _ now).bind fun _ => Triple.pure fun _ h => h

omit [PyText F] in
/-- A rate rule: it divides by a time of at least the window. -/
theorem within_onRate [IeeeFloat F] (ht : Sampled t) (now clock : F) {rule : String × Json F}
    (hrule : RateOk rule) (hkey : (Dict.get? t rule.1).isSome = true → hist rule.1) :
    Triple (Within r dev avg hist s₀) (onRate dev t now clock rule)
      (fun _ => Within r dev avg hist s₀) (OutOfRange r t) := by
  rw [onRate]
  dsimp only
  rcases hget : Dict.get? t rule.1 with _ | v
  · exact Triple.pure fun _ h => h
  have hkey : hist rule.1 := hkey (by rw [hget]; rfl)
  obtain ⟨hnumeric, kvs, hkvs, window, hwindow, hpositive, hreached⟩ :=
    hrule (ht.fields rule.1 (by rw [hget]; rfl))
  dsimp only
  rw [hkvs]
  refine Triple.bind (within_toFloat hnumeric hget) fun x => ?_
  refine Triple.bind (Q := fun _ => Within r dev avg hist s₀)
    (within_st.weaken (fun _ h => h) (fun _ _ h => h.2) fun _ h => h) fun d => ?_
  refine Triple.bind (within_setHistory hkey _) fun _ =>
    Triple.ok_bind (a := entry kvs "window_s" (lit 5.0)) rfl (Triple.ok_bind hwindow
      (Triple.bind (within_setHistory hkey _) fun _ => ?_))
  split
  · exact Triple.pure fun _ h => h
  · next ref href =>
    -- the sample is at least a window old
    have hle : PyFloat.le window (PyFloat.sub now ref.1) = true := by
      simpa using List.find?_some href
    obtain ⟨lim, hlim, hseverity⟩ := hreached _ hle
    obtain ⟨rate, hrate⟩ := IeeeFloat.div_ok (PyFloat.sub x ref.2) (PyFloat.sub now ref.1)
      (IeeeFloat.pos_of_le _ _ hle hpositive)
    refine Triple.ok_bind hrate (Triple.ok_bind (a := entry kvs "max_per_s" (lit 2.0)) rfl
      (Triple.ok_bind hlim (Triple.ok_bind (a := entry kvs "severity" (.str "warn")) rfl ?_)))
    refine Triple.bind (within_mark (fun hcond => ?_) now _ _ clock) fun _ =>
      Triple.pure fun _ h => h
    exact ⟨rfl, Json.storable_str _, hseverity rate hcond, Json.storable_str _⟩

theorem within_onRates [IeeeFloat F] (ht : Sampled t) (now clock : F) (hr : RulesOk r)
    (hhist : ∀ key, (Dict.get? t key).isSome = true → hist key) :
    Triple (Within r dev avg hist s₀) (onRates dev t now clock) (fun _ => Within r dev avg hist s₀)
      (OutOfRange r t) := by
  obtain ⟨kvs, hkvs, hrates⟩ := hr.rates
  refine within_get fun s hs => ?_
  rw [hs, hkvs]
  exact Triple.collect_inv fun rule hrule =>
    within_onRate ht now clock (hrates rule hrule) (hhist _)

omit [PyText F] in
theorem not_lone_of_toFloat {v : Json F} {x : F} (h : v.toFloat = .ok x) (t : LoneText) :
    v ≠ .lone t := by
  rintro rfl
  cases h

/-- The loss. -/
theorem within_onLoss {E : Engine F → Prop} (loss : Option F) (now clock : F) (hr : RulesOk r) :
    Triple (Within r dev avg hist s₀) (onLoss dev loss now clock)
      (fun _ => Within r dev avg hist s₀) E := by
  cases loss with
  | none => exact Triple.pure fun _ h => h
  | some loss =>
    obtain ⟨kvs, hcomm, hlimit⟩ := hr.comm
    refine within_get fun s hs => ?_
    rw [hs, ← entry, hcomm]
    refine Triple.ok_bind (a := entry kvs "loss_pct" .null) rfl ?_
    split
    · exact Triple.pure fun _ h => h
    · next hnull =>
      obtain ⟨limit, htoFloat, hseverity⟩ := hlimit hnull
      refine Triple.ok_bind htoFloat
        (Triple.ok_bind (a := entry kvs "severity" (.str "warn")) rfl ?_)
      refine within_mark (fun hcond => ?_) now _ _ clock
      -- a limit that is a number can be quoted
      have hmessage := Json.storable_formatted (not_lone_of_toFloat htoFloat)
        ("packet loss " ++ PyFloat.fixed loss 1 ++ "% > ") "%"
      exact ⟨rfl, Json.storable_str _, hseverity loss hcond, hmessage⟩

end Sample

/-! ## The averages -/

section Averages

variable [IeeeFloat F] {r : Dict String (Json F)} {dev : String} {t : Dict String (Json F)}
  {avg hist : String → Prop} {s₀ : Engine F}

omit [PyText F] in
theorem rootable_zero : PyFloat.lt (ewma0 : Ewma F).var (PyFloat.ofRat 0) = false :=
  IeeeFloat.lit_mono 0 0 (le_refl 0)

omit [PyText F] in
/-- `update` returns, and the new variance has a root. -/
theorem ewmaUpdate_rootable {e : Ewma F} (hvar : PyFloat.lt e.var (PyFloat.ofRat 0) = false) (x : F)
    (alpha : F) (learnVar : Bool) (halpha : learnVar = true →
      PyFloat.lt alpha (PyFloat.ofRat 0) = false ∧ PyFloat.lt (PyFloat.ofRat 1) alpha = false) :
    ∃ z e', ewmaUpdate e x alpha learnVar = .ok (z, e') ∧
      PyFloat.lt e'.var (PyFloat.ofRat 0) = false := by
  -- the variance that is left, whatever the z-score
  have hleft : PyFloat.lt (if learnVar = true then
      PyFloat.mul (PyFloat.sub (PyFloat.ofRat 1) alpha) (PyFloat.add e.var
        (PyFloat.mul (PyFloat.mul alpha (PyFloat.sub x e.mean)) (PyFloat.sub x e.mean)))
      else e.var) (PyFloat.ofRat 0) = false := by
    cases learnVar with
    | false => exact hvar
    | true => exact IeeeFloat.spread_nonneg _ _ _ (halpha rfl).1 (halpha rfl).2 hvar
  rw [ewmaUpdate]
  by_cases hn : e.n = 0
  · rw [if_pos hn]
    exact ⟨_, _, rfl, rootable_zero⟩
  rw [if_neg hn]
  obtain ⟨std, hstd⟩ := IeeeFloat.sqrt_ok e.var hvar
  rw [hstd]
  simp only [bind, Except.bind]
  by_cases hpos : PyFloat.lt (PyFloat.ofRat 0) std = true
  · obtain ⟨z, hz⟩ := IeeeFloat.div_ok (PyFloat.abs (PyFloat.sub x e.mean)) std hpos
    rw [if_pos hpos, hz]
    exact ⟨_, _, rfl, hleft⟩
  · rw [if_neg hpos]
    exact ⟨_, _, rfl, hleft⟩

omit [PyText F] in
/-- The update at the end of `judge`; an anomalous sample leaves the variance alone. -/
theorem judge_tail {p : AnomalyParams F} (hp : p.Shares) {e : Ewma F}
    (hvar : PyFloat.lt e.var (PyFloat.ofRat 0) = false) (hot : Bool) (now x : F) :
    ∃ e', (do
        let (_, e') ← ewmaUpdate e x (if hot = true then PyFloat.mul p.alpha (PyFloat.ofRat 0.1)
          else p.alpha) (!hot)
        return if hot = true then
            { e' with streak := e'.streak + 1, since := some (e'.since.getD now) }
          else { e' with streak := 0, since := none } : Except PyError (Ewma F)) = .ok e' ∧
      PyFloat.lt e'.var (PyFloat.ofRat 0) = false := by
  cases hot with
  | true =>
    obtain ⟨_, e', hupdate, hvar'⟩ := ewmaUpdate_rootable hvar x
      (PyFloat.mul p.alpha (PyFloat.ofRat 0.1)) false nofun
    rw [if_pos rfl, Bool.not_true, hupdate]
    exact ⟨_, rfl, hvar'⟩
  | false =>
    obtain ⟨_, e', hupdate, hvar'⟩ := ewmaUpdate_rootable hvar x p.alpha true
      fun _ => hp
    rw [if_neg Bool.false_ne_true, Bool.not_false, hupdate]
    exact ⟨_, rfl, hvar'⟩

omit [PyText F] in
/-- A variance that has a root leaves one that has a root. -/
theorem judge_rootable {p : AnomalyParams F} (hp : p.Shares) {e : Ewma F}
    (hvar : PyFloat.lt e.var (PyFloat.ofRat 0) = false) (suppressed : Bool) (now x : F) :
    ∃ e', judge p suppressed now x e = .ok e' ∧ PyFloat.lt e'.var (PyFloat.ofRat 0) = false := by
  obtain ⟨root, hroot⟩ := IeeeFloat.sqrt_ok e.var hvar
  rw [judge, hroot]
  simp only [bind, Except.bind]
  obtain ⟨std, hstd⟩ : ∃ std,
      (if decide (p.warmup ≤ e.n) = true then pyMax root p.minStd else root) =
    std := ⟨_, rfl⟩
  rw [hstd]
  by_cases hpos : (decide (p.warmup ≤ e.n) && PyFloat.lt (PyFloat.ofRat 0) std) = true
  · obtain ⟨z, hz⟩ := IeeeFloat.div_ok (PyFloat.abs (PyFloat.sub x e.mean)) std
      (Bool.and_eq_true_iff.mp hpos).2
    rw [if_pos hpos, hz]
    exact judge_tail hp hvar (decide (p.warmup ≤ e.n) && PyFloat.lt p.zlim z && !suppressed) now x
  · rw [if_neg hpos]
    exact judge_tail hp hvar
      (decide (p.warmup ≤ e.n) && PyFloat.lt p.zlim (PyFloat.ofRat 0) && !suppressed) now x

omit [PyText F] in
/-- The average of a metric, new or known. -/
theorem DeviceOk.average {d : DeviceState F} (hd : DeviceOk d) (key : String) :
    PyFloat.lt ((Dict.get? d.ewma key).getD ewma0).var (PyFloat.ofRat 0) = false := by
  rcases hget : Dict.get? d.ewma key with _ | e
  · exact rootable_zero
  · exact hd.var _ (Dict.get?_mem (.of_lawful key) hget)

/-- A metric with a value is converted, and its average updated. -/
theorem within_onGate (ht : Sampled t) {p : AnomalyParams F} {gate : Dict String (Json F)}
    (hgate : GateOk p gate) (havg : ∀ key, avg key) :
    Triple (Within r dev avg hist s₀) (onGate dev t p (.obj gate))
      (fun _ => Within r dev avg hist s₀) (OutOfRange r t) := by
  refine Triple.ok_bind (a := entry gate "metric" .null) rfl
    (Triple.ite (fun htruthy => ?_) fun _ => Triple.pure fun _ h => h)
  obtain ⟨⟨hhash, hnumeric⟩, hmoving⟩ := hgate htruthy
  -- no such field in the sample: the gate is not looked at
  rcases lookupIn_cases ht hhash with hnone | ⟨key, v, hmetric, hkey, hget, hsome⟩
  · exact Triple.ok_bind hnone (Triple.pure fun _ h => h)
  obtain ⟨hkey', hp⟩ := hnumeric key hkey hmetric
  obtain ⟨⟨frac, hfrac⟩, abs, habs⟩ := hmoving key hkey hmetric
  refine Triple.ok_bind hsome ?_
  dsimp only
  refine within_st.bind fun d => Triple.of_and fun hd => ?_
  have hvar := hd.average ("gate:" ++ PyText.pyStr (entry gate "metric" .null))
  refine (within_setAverage (havg _) hvar).bind fun _ =>
    (within_toFloat hkey' hget).bind fun gx => ?_
  -- the numbers of the gate are readable, so it has an answer
  obtain ⟨moving, hrun⟩ : ∃ moving, gateMoving p (.obj gate)
      ((Dict.get? d.ewma ("gate:" ++ PyText.pyStr (entry gate "metric" .null))).getD ewma0) gx =
        .ok moving := by
    rw [gateMoving]
    split
    · have hfrac' : floatOf (.obj gate) "frac" (lit 0.1) = .ok frac := hfrac
      have habs' : floatOf (.obj gate) "abs" (lit 0.0) = .ok abs := habs
      rw [hfrac', habs']
      exact ⟨_, rfl⟩
    · exact ⟨_, rfl⟩
  obtain ⟨z, e', hupdate, hvar'⟩ := ewmaUpdate_rootable hvar gx p.alpha true fun _ => hp
  refine Triple.ok_bind hrun (Triple.ok_bind hupdate ?_)
  exact (within_setAverage (havg _) hvar').bind fun _ => Triple.pure fun _ h => h

/-- The average of one metric. -/
theorem within_onAnomalyMetric (ht : Sampled t) (now clock : F) {p : AnomalyParams F}
    {severity : Json F} (moving : Bool) (gated : List (Json F)) {metric : Json F}
    (hmetric : AverageOk p metric ∧ ∀ key ∈ SAMPLE_FIELDS, metric = .str key →
      ∀ dt, PyFloat.le p.sustainS dt = true → severity.Storable) (havg : ∀ key, avg key) :
    Triple (Within r dev avg hist s₀)
      (onAnomalyMetric dev t now clock p severity moving gated metric)
      (fun _ => Within r dev avg hist s₀) (OutOfRange r t) := by
  obtain ⟨⟨hhash, hnumeric⟩, hseverity⟩ := hmetric
  rcases lookupIn_cases ht hhash with hnone | ⟨key, v, rfl, hkey, hget, hsome⟩
  · exact Triple.ok_bind hnone (Triple.pure fun _ h => h)
  obtain ⟨hkey', hp⟩ := hnumeric key hkey rfl
  refine Triple.ok_bind hsome ((within_toFloat hkey' hget).bind fun x => ?_)
  refine within_st.bind fun d => Triple.of_and fun hd => ?_
  have hvar := hd.average (PyText.pyStr (.str key : Json F))
  obtain ⟨e', hjudge, hvar'⟩ := judge_rootable hp hvar (moving && gated.any (· == .str key)) now x
  refine (within_setAverage (havg _) hvar).bind fun _ => Triple.ok_bind hjudge ?_
  refine (within_setAverage (havg _) hvar').bind fun _ => ?_
  refine (within_mark (fun hcond => ?_) now _ _ clock).bind fun _ => Triple.pure fun _ h => h
  have hstorable := hseverity key hkey rfl _ (Bool.and_eq_true_iff.mp hcond).2
  exact ⟨rfl, Json.storable_str _, hstorable, Json.storable_str _⟩

/-- The anomaly rules. -/
theorem within_onAnomaly (ht : Sampled t) (now clock : F) (hr : RulesOk r) (havg : ∀ key, avg key) :
    Triple (Within r dev avg hist s₀) (onAnomaly dev t now clock)
      (fun _ => Within r dev avg hist s₀) (OutOfRange r t) := by
  obtain ⟨kvs, hkvs, hanomaly⟩ := hr.anomaly
  refine within_get fun s hs => ?_
  rw [hs, ← entry, hkvs]
  refine Triple.ok_bind (a := entry kvs "enabled" (.bool true)) rfl
    (Triple.ite (fun henabled => ?_) fun _ => Triple.pure fun _ h => h)
  obtain ⟨p, gate, gated, metrics, hp, hgate, hgated, hgateOk, hmetrics, hmetricsOk⟩ :=
    hanomaly henabled
  refine Triple.ok_bind hp (Triple.ok_bind (a := Dict.get? kvs "gate") rfl ?_)
  rw [hgate]
  refine Triple.ok_bind hgated ((within_onGate ht hgateOk havg).bind fun moving => ?_)
  refine Triple.ok_bind (a := entry kvs "metrics" (.arr [])) rfl (Triple.ok_bind hmetrics
    (Triple.ok_bind (a := entry kvs "severity" (.str "warn")) rfl ?_))
  exact Triple.collect_inv fun metric hmetric =>
    within_onAnomalyMetric ht now clock moving gated (hmetricsOk metric hmetric) havg

/-- `on_telemetry` raises only on a number out of range. -/
theorem within_onTelemetry (ht : Sampled t) (now clock : F) (loss : Option F) (hr : RulesOk r)
    (havg : ∀ key, avg key) (hhist : ∀ key, (Dict.get? t key).isSome = true → hist key) :
    Triple (Within r dev avg hist s₀) (onTelemetry dev t now clock loss)
      (fun _ => Within r dev avg hist s₀) (OutOfRange r t) := by
  refine Triple.bind (Q := fun _ => Within r dev avg hist s₀)
    (within_st.weaken (fun _ h => h) (fun _ _ h => h.2) fun _ h => h) fun _ => ?_
  refine within_configFor.bind fun cfg => Triple.of_and fun hcfg => ?_
  refine (within_onThresholds ht hcfg now clock hr).bind fun _ =>
    (within_onFaultFlags ht now clock hr).bind fun _ =>
      (within_onRates ht now clock hr hhist).bind fun _ =>
    (within_onAnomaly ht now clock hr havg).bind fun _ =>
      (within_onLoss loss now clock hr).bind fun _ => ?_
  exact Triple.pure fun _ h => h

/-- A whole sample. -/
theorem ready_onTelemetry (ht : Sampled t) (now clock : F) (loss : Option F) (hr : RulesOk r) :
    Triple (Ready r) (onTelemetry dev t now clock loss) (fun _ => Ready r) (OutOfRange r t) := by
  intro s hs
  have hrun : Triple (Within r dev (fun _ => True) (fun _ => True) s)
      (onTelemetry dev t now clock loss)
      (fun _ => Within r dev (fun _ => True) (fun _ => True) s) (OutOfRange r t) :=
    within_onTelemetry ht now clock loss hr (fun _ => trivial) fun _ _ => trivial
  exact hrun.weaken (fun _ h => h) (fun _ _ h => h.2) (fun _ h => h) s (.start hs)

end Averages

/-! ## Ticks -/

section Tick

variable {r : Dict String (Json F)} {E : Engine F → Prop} {dev : String}

omit [PyText F] in
/-- `resolve` of a rule that SQLite takes. -/
theorem ready_resolve {rule : Json F} (h : rule.Storable) (now clock : F) :
    Triple (Ready r) (resolve dev rule now clock) (fun _ => Ready r) E := by
  obtain ⟨text, htext⟩ := h
  refine Triple.ok_bind htext (Triple.bind (Q := fun _ => Ready r) (Triple.get fun _ h => h)
    fun s => ?_)
  have hpop : ∀ d : DeviceState F, DeviceOk d →
      DeviceOk { d with active := Dict.pop d.active rule } :=
    fun d hd => ⟨hd.var, fun e he => hd.active e (Dict.pop_sublist.subset he)⟩
  refine (ready_modifySt hpop).bind fun _ => ?_
  split
  · exact Triple.pure fun _ h => h
  · exact Triple.modify fun s h => h.congr rfl rfl rfl rfl h.devices

omit [PyText F] in
/-- One row of the sweep. -/
theorem ready_tickSweep (now clock limit : F) (a : AlertRow F) :
    Triple (Ready r) (tickSweep now clock limit a) (fun _ => Ready r) E := by
  have hrule : ((a.rule.map Json.str).getD .null : Json F).Storable := by
    cases a.rule with
    | none => exact ⟨none, rfl⟩
    | some rule => exact Json.storable_str rule
  refine Triple.bind (Q := fun _ => Ready r) (Triple.get fun _ h => h) fun s => ?_
  dsimp only
  refine Triple.ite (fun _ => Triple.pure fun _ h => h) fun _ =>
    Triple.ite (fun _ => Triple.pure fun _ h => h) fun _ => Triple.ite (fun _ => ?_) fun _ =>
      Triple.pure fun _ h => h
  exact ready_resolve hrule now clock

omit [PyText F] in
/-- The rules in force are `r`. -/
theorem ready_get {α : Type} {f : Engine F → EngineM F α} {Q : α → Engine F → Prop}
    (h : ∀ s, s.rules = r → Triple (Ready r) (f s) Q E) :
    Triple (Ready r) (Proc.get >>= f) Q E :=
  Triple.bind (Q := fun s₀ s => s₀.rules = r ∧ Ready r s) (Triple.get fun _ h => ⟨h.rules, h⟩)
    fun s => Triple.of_and (h s)

/-- `tick` returns: the hold time is a number, and every name can be looked up. -/
theorem ready_tick (now clock : F) (hr : RulesOk r) :
    Triple (Ready r) (tick now clock) (fun _ => Ready r) E := by
  obtain ⟨limit, hlimit⟩ := hr.hold
  refine ready_get fun s hs => ?_
  have hhold : s.hold = .ok limit := by
    rw [hold, hs]
    exact hlimit
  refine Triple.ok_bind hhold (Triple.bind (Triple.forEach fun e _ => ?_) fun _ => ?_)
  · refine ready_st.bind fun d => Triple.of_and fun hd => Triple.forEach fun a ha => ?_
    refine Triple.ite (fun _ => Triple.pure fun _ h => h) fun _ => Triple.ite (fun _ => ?_) fun _ =>
      Triple.pure fun _ h => h
    exact ready_resolve (hd.active a ha) now clock
  · refine Triple.bind (Q := fun _ => Ready r) (Triple.get fun _ h => h) fun s => ?_
    exact Triple.forEach fun a _ => ready_tickSweep now clock limit a

end Tick

/-! ## Offline and online -/

section Online

variable {r : Dict String (Json F)} {dev : String}

omit [PyText F] in
theorem ready_onOnline {E : Engine F → Prop} (now clock : F) :
    Triple (Ready r) (onOnline dev now clock) (fun _ => Ready r) E := by
  refine Triple.bind (Q := fun _ => Ready r) (Triple.get fun _ h => h) fun s => ?_
  exact Triple.ite (fun _ => ready_resolve (Json.storable_str _) now clock) fun _ =>
    Triple.pure fun _ h => h

omit [PyText F] in
/-- The `offline` section may raise; the engine stays ready. -/
theorem ready_onOffline (now clock : F) :
    Triple (Ready r) (onOffline dev now clock) (fun _ => Ready r) (Ready r) := by
  have hraise : ∀ x : Except PyError (Json F), Triple (Ready r) (Proc.ofExcept x) (fun _ => Ready r)
      (Ready r) := fun x => Triple.ofExcept (fun _ _ _ h => h) fun _ _ _ h => h
  refine Triple.bind (Q := fun _ => Ready r) (Triple.get fun _ h => h) fun s => ?_
  refine (hraise _).bind fun enabled => Triple.ite (fun _ => ?_) fun _ => Triple.pure fun _ h => h
  refine (hraise _).bind fun severity => ?_
  exact ready_mark (fun _ => ⟨rfl, Json.storable_str _, .inr rfl⟩) now none none clock

end Online

/-! ## Every event -/

/-- The rules stay, samples have their fields, and rows are those of a request. -/
def Steady : EngineEvent F → Prop
  | .telemetry _ t _ _ _ => Sampled t
  | .write db => ∀ row ∈ db.configs, RowOk row
  | .setRules _ => False
  | .restart => False
  | _ => True

section Handle

variable [IeeeFloat F] {r : Dict String (Json F)} {E : Engine F → Prop}

omit [PyText F] [IeeeFloat F] in
theorem ready_newSample : Triple (Ready r) (newSample (F := F)) (fun _ => Ready r) E :=
  Triple.modify fun _ h => h.congr rfl rfl rfl rfl h.devices

omit [IeeeFloat F] in
/-- `on_comm`. -/
theorem ready_onComm (dev : String) (loss now clock : F) (hr : RulesOk r) :
    Triple (Ready r) (onComm dev loss now clock) (fun _ => Ready r) E := by
  intro s hs
  have hloss : Triple (Within r dev (fun _ => False) (fun _ => False) s)
      (onLoss dev (some loss) now clock)
      (fun _ => Within r dev (fun _ => False) (fun _ => False) s) E :=
    within_onLoss (some loss) now clock hr
  exact hloss.weaken (fun _ h => h) (fun _ _ h => h.2) (fun _ h => h) s (.start hs)

/-- What happens to the engine keeps it ready, whether it returns or raises. -/
theorem ready_handle (hr : RulesOk r) {e : EngineEvent F} (he : Steady e) :
    Triple (Ready r) (handle e) (fun _ => Ready r) (Ready r) := by
  -- events that only modify the state raise nothing and report nothing
  have hmodify : ∀ {f : Engine F → Engine F}, (∀ s, Ready r s → Ready r (f s)) →
      Triple (Ready r) (Proc.modify f >>= fun _ => Pure.pure [] : EngineM F (List (Json F)))
        (fun _ => Ready r) (Ready r) := fun hf => Triple.bind (Triple.modify hf) fun _ =>
          Triple.pure fun _ h => h
  cases e with
  | telemetry dev t now clock loss =>
    refine ready_newSample.bind fun _ => (ready_onTelemetry he now clock loss hr).weaken
      (fun _ h => h) (fun _ _ h => h) fun _ h => h.1
  | comm dev loss now clock =>
    exact ready_newSample.bind fun _ => (ready_onComm dev loss now clock hr).bind fun _ =>
      Triple.pure fun _ h => h
  | offline dev now clock =>
    exact ready_newSample.bind fun _ => (ready_onOffline now clock).bind fun _ =>
      Triple.pure fun _ h => h
  | online dev now clock => exact (ready_onOnline now clock).bind fun _ => Triple.pure fun _ h => h
  | tick now clock => exact (ready_tick now clock hr).bind fun _ => Triple.pure fun _ h => h
  -- `Steady` keeps these two out
  | setRules rules => exact he.elim
  | restart => exact he.elim
  | invalidateConfig dev =>
    refine hmodify fun s h => ?_
    exact ⟨h.rules, h.stored, fun e he => h.config e (Dict.pop_sublist.subset he), h.rows,
      h.devices⟩
  | ackAlert aid clock =>
    refine hmodify fun s h => ?_
    -- an acknowledgement writes the alerts, whichever way it ends
    have hconfigs : (s.db.ackAlert aid clock).configs = s.db.configs := by
      rw [Database.ackAlert]
      split
      · rfl
      · split <;> rfl
    exact h.congr rfl (Database.ackAlert_rules s.db aid clock) rfl hconfigs h.devices
  | write db => exact hmodify fun s h => ⟨h.rules, h.stored, h.config, he, h.devices⟩

end Handle

end Engine

end EcuTelemetry.Backend
