/-
  EcuTelemetry.Backend.Alerts

  The alerts across whole runs of the rule engine: samples, device events,
  ticks, rule edits, acknowledgements and restarts in any order.  A sample
  `Opens` alerts, a tick and a device that comes back `Closes` them.

  `open_alert` finds an alert by the name of its rule, as the TEXT column holds
  it.  A NaN is held as NULL, which no query finds: a threshold rule with this
  name opens an alert on every sample.  No other name does.
-/

import EcuTelemetry.Backend.AlertTable
import EcuTelemetry.Backend.AnomalyFrame
import EcuTelemetry.Backend.ExactFloat
import EcuTelemetry.Lib.Run

namespace EcuTelemetry.Backend

open Proc

variable {F : Type}

/-! ## Runs -/

/-- What happens to the engine. -/
inductive EngineEvent (F : Type)
  | telemetry (dev : String) (t : Dict String (Json F)) (now clock : F) (loss : Option F)
  | comm (dev : String) (loss now clock : F)
  | offline (dev : String) (now clock : F)
  | online (dev : String) (now clock : F)
  | tick (now clock : F)
  | setRules (rules : Dict String (Json F))
  | invalidateConfig (dev : String)
  /-- `POST /api/alerts/{id}/ack` -/
  | ackAlert (aid : Nat) (clock : F)
  /-- a new process on the same database -/
  | restart
  /-- other code writes the other tables -/
  | write (db : Database F)

/-! ## Names -/

/-- A rule's name that a TEXT column can hold. -/
def TextName [PyFloat F] (name : Json F) : Prop := name.sqlText ≠ .ok none

theorem textName_str [PyFloat F] (s : String) : TextName (.str s : Json F) := by
  rw [TextName]
  nofun

/-- The event gives rules no name that the alerts table holds as NULL. -/
def EngineEvent.Named [PyFloat F] [PyText F] : EngineEvent F → Prop
  | .setRules rules => NamesOk TextName rules
  | _ => True

namespace Engine

section Run

variable [PyFloat F]

/-- A new input; its number is the `sample` of the evaluations made on it. -/
def newSample : EngineM F Unit := Proc.modify fun s => { s with samples := s.samples + 1 }

/-- `AnomalyEngine(db)` in a new process: all but the database is lost. -/
def restart : EngineM F Unit :=
  Proc.modify fun s =>
    { init s.db with observed := s.observed, samples := s.samples, born := s.samples }

variable [PyText F]

/-- One event; the names that fired, where it is a sample. -/
def handle : EngineEvent F → EngineM F (List (Json F))
  | .telemetry dev t now clock loss => do
    newSample
    onTelemetry dev t now clock loss
  | .comm dev loss now clock => do
    newSample
    onComm dev loss now clock
    return []
  | .offline dev now clock => do
    newSample
    onOffline dev now clock
    return []
  | .online dev now clock => do
    onOnline dev now clock
    return []
  | .tick now clock => do
    tick now clock
    return []
  | .setRules rules => do
    setRules rules
    return []
  | .invalidateConfig dev => do
    invalidateConfig dev
    return []
  | .ackAlert aid clock => do
    Proc.modify fun s => { s with db := s.db.ackAlert aid clock }
    return []
  | .restart => do
    restart
    return []
  -- the other writes of the backend leave the alerts and the rules
  | .write db => do
    Proc.modify fun s =>
      { s with
        db := { db with alerts := s.db.alerts, nextAlertId := s.db.nextAlertId,
                        rules := s.db.rules } }
    return []

/-- The state after an event; what was done before an exception stays done. -/
def step (s : Engine F) (e : EngineEvent F) : Engine F := (handle e s).2

/-- A run on a new database. -/
def run (events : List (EngineEvent F)) : Engine F := exec step (init {}) events

end Run

/-! ## What a step does to the alerts -/

/-- The rules in force and the stored ones stay. -/
def SameRules (s s' : Engine F) : Prop := s'.rules = s.rules ∧ s'.db.rules = s.db.rules

/-- Alerts are appended. -/
def Appends (s s' : Engine F) : Prop := s.db.Appends s'.db ∧ SameRules s s'

/-- Alerts are appended, each where there was none. -/
def Opens (s s' : Engine F) : Prop := Appends s s' ∧ (s.db.AlertsOk → s'.db.AlertsOk)

/-- Alerts move forward. -/
def Closes (s s' : Engine F) : Prop := s.db.Closes s'.db ∧ SameRules s s'

theorem SameRules.trans {s s' s'' : Engine F} (h : SameRules s s') (h' : SameRules s' s'') :
    SameRules s s'' := ⟨h'.1.trans h.1, h'.2.trans h.2⟩

instance : IsPreorder (Engine F) (Appends (F := F)) where
  refl s := ⟨.refl s.db, rfl, rfl⟩
  trans _ _ _ h h' := ⟨h.1.trans h'.1, h.2.trans h'.2⟩

instance : IsPreorder (Engine F) (Opens (F := F)) where
  refl s := ⟨refl_of Appends s, id⟩
  trans _ _ _ h h' := ⟨trans_of Appends h.1 h'.1, h'.2 ∘ h.2⟩

instance : IsPreorder (Engine F) (Closes (F := F)) where
  refl s := ⟨.refl s.db, rfl, rfl⟩
  trans _ _ _ h h' := ⟨h.1.trans h'.1, h.2.trans h'.2⟩

section SameDatabase

variable {s s' : Engine F} (h : s'.db = s.db) (hr : s'.rules = s.rules)

include h hr

theorem Appends.of_db_eq : Appends s s' :=
  ⟨.of_alerts_eq (by rw [h]) (by rw [h]), hr, by rw [h]⟩

theorem Opens.of_db_eq : Opens s s' := ⟨.of_db_eq h hr, fun hok => by rw [h]; exact hok⟩

theorem Closes.of_db_eq : Closes s s' := ⟨by rw [h]; exact .refl _, hr, by rw [h]⟩

end SameDatabase

/-- `_st` at most makes a record in memory. -/
theorem keeps_st {R : Engine F → Engine F → Prop}
    (hdb : ∀ s s' : Engine F, s'.db = s.db → s'.rules = s.rules → s'.hwCache = s.hwCache → R s s')
    (dev : String) :
    Keeps R (st dev) := by
  intro s
  refine hdb _ _ ?_ ?_ ?_ <;>
  · rw [st]
    split <;> rfl

variable [PyFloat F]

/-! ## Steps that open alerts -/

/-- `create_alert` only where `open_alert` finds nothing. -/
theorem openIfNone_spec (dev : String) (rule metric : Option String) (value : Option F)
    (severity message : Json F) (clock : F) (s : Engine F) :
    (openIfNone dev rule metric value severity message clock s).2 = s ∨
      (s.db.openAlert dev rule = none ∧ ∃ sev msg,
        (openIfNone dev rule metric value severity message clock s).2 =
          { s with db := s.db.createAlert dev rule metric value sev msg clock }) := by
  rw [openIfNone, bind_run_ok (get_run s)]
  split
  · next hnone =>
    rcases severity.sqlText with e | sev
    · exact .inl rfl
    · rcases message.sqlText with e | msg
      · exact .inl rfl
      · exact .inr ⟨Option.isNone_iff_eq_none.mp hnone, sev, msg, rfl⟩
  · exact .inl rfl

section Creates

variable {R : Engine F → Engine F → Prop} [IsPreorder (Engine F) R]

/-- Nothing but the database and the rules counts, and `create_alert` is only
    called where `open_alert` finds nothing. -/
theorem sampleFrame_of_create {ok : Json F → Prop} {dev : String} {now clock : F}
    (hdb : ∀ s s' : Engine F, s'.db = s.db → s'.rules = s.rules → s'.hwCache = s.hwCache → R s s')
    (hhw : ∀ s, Dict.get? s.hwCache dev = none →
      R s { s with hwCache := Dict.set s.hwCache dev (s.hwModel dev) })
    (hrules : ∀ s s', R s s' → s'.rules = s.rules) (hstr : ∀ s, ok (.str s))
    (hcreate : ∀ s name rule metric value severity message, ok name → name.sqlText = .ok rule →
      s.db.openAlert dev rule = none →
      R s { s with db := s.db.createAlert dev rule metric value severity message clock }) :
    SampleFrame R ok dev now clock := by
  have hst : ∀ f, Keeps R (modifySt dev f) := fun f =>
    (keeps_st hdb dev).bind fun _ => Keeps.modify fun _ => hdb _ _ rfl rfl rfl
  refine ⟨hrules, hstr, fun _ _ => hdb _ _ rfl rfl rfl, hhw, keeps_st hdb dev,
    fun f _ => hst f, fun _ => Keeps.modify fun _ => hdb _ _ rfl rfl rfl, ?_⟩
  intro name cond metric value severity message hname
  refine (keeps_st hdb dev).bind fun _ => Keeps.bind (Keeps.modify fun _ => hdb _ _ rfl rfl rfl)
    fun _ => Keeps.ite (fun _ => Keeps.ite (fun _ => ?_) fun _ => Keeps.raise _)
    fun _ => Keeps.pure _
  refine (hst _).bind fun _ => Keeps.ofExcept_bind fun rule hrule => ?_
  intro s
  -- an open alert stays, or a new one is created
  rcases openIfNone_spec dev rule metric value severity message clock s with
    heq | ⟨hnone, sev, msg, heq⟩
  · rw [heq]
    exact refl_of R s
  · rw [heq]
    exact hcreate s name rule metric value sev msg hname hrule hnone

end Creates

theorem sampleFrame_appends (dev : String) (now clock : F) :
    SampleFrame (Appends (F := F)) (fun _ => True) dev now clock :=
  sampleFrame_of_create (fun _ _ h hr _ => .of_db_eq h hr) (fun _ _ => .of_db_eq rfl rfl)
    (fun _ _ h => h.2.1) (fun _ => trivial)
    fun _ _ _ _ _ _ _ _ _ hnone => ⟨.createAlert hnone, rfl, rfl⟩

/-- What a sample does opens alerts and closes none. -/
theorem sampleFrame_opens (dev : String) (now clock : F) :
    SampleFrame (Opens (F := F)) TextName dev now clock := by
  refine sampleFrame_of_create (fun _ _ h hr _ => .of_db_eq h hr) (fun _ _ => .of_db_eq rfl rfl)
    (fun _ _ h => h.1.2.1) textName_str ?_
  intro s name rule metric value severity message hname hrule hnone
  refine ⟨⟨.createAlert hnone, rfl, rfl⟩, fun hok => hok.createAlert ?_ hnone⟩
  rintro rfl
  exact hname hrule

theorem keeps_onOffline {R : Engine F → Engine F → Prop} [IsPreorder (Engine F) R]
    {ok : Json F → Prop} {dev : String} {now clock : F} (h : SampleFrame R ok dev now clock) :
    Keeps R (onOffline dev now clock) := by
  refine Keeps.get.bind fun s => (Keeps.ofExcept _).bind fun enabled => ?_
  refine Keeps.ite (fun _ => (Keeps.ofExcept _).bind fun _ => ?_) fun _ => Keeps.pure _
  exact h.mark _ _ _ _ _ _ (h.str _)

/-! ## Steps that close alerts -/

section Resolves

variable {R : Engine F → Engine F → Prop} [IsPreorder (Engine F) R] {now clock : F}

/-- `resolve` keeps what the memory and an update of one row keep. -/
theorem keeps_resolve
    (hdb : ∀ s s' : Engine F, s'.db = s.db → s'.rules = s.rules → s'.hwCache = s.hwCache → R s s')
    (hupdate : ∀ (s : Engine F) aid,
      R s { s with
        db := s.db.updateAlert aid clock fun a =>
          { a with status := .resolved, resolvedAt := some now } })
    (dev : String) (rule : Json F) : Keeps R (resolve dev rule now clock) := by
  refine (Keeps.ofExcept _).bind fun r => Keeps.get.bind fun s => Keeps.bind ?_ fun _ => ?_
  · exact (keeps_st hdb dev).bind fun _ => Keeps.modify fun _ => hdb _ _ rfl rfl rfl
  · split
    · exact Keeps.pure _
    · exact Keeps.modify fun s => hupdate s _

variable (hresolve : ∀ dev rule, Keeps R (resolve dev rule now clock))

include hresolve

/-- And so does `tick`, which resolves one after the other. -/
theorem keeps_tick (hst : ∀ dev, Keeps R (st (F := F) dev)) : Keeps R (tick now clock) := by
  refine Keeps.get.bind fun s => (Keeps.ofExcept _).bind fun h => Keeps.bind ?_ fun _ =>
    Keeps.get.bind fun s' => Keeps.forEach fun a _ => ?_
  · refine Keeps.forEach fun e _ => (hst _).bind fun d => Keeps.forEach fun e' _ => ?_
    refine Keeps.ite (fun _ => Keeps.pure _) fun _ => Keeps.ite (fun _ => ?_) fun _ => Keeps.pure _
    exact hresolve _ _
  · refine Keeps.get.bind fun s'' => ?_
    dsimp only
    refine Keeps.ite (fun _ => Keeps.pure _) fun _ => Keeps.ite (fun _ => Keeps.pure _) fun _ =>
      Keeps.ite (fun _ => ?_) fun _ => Keeps.pure _
    exact hresolve _ _

theorem keeps_onOnline (dev : String) : Keeps R (onOnline dev now clock) :=
  Keeps.get.bind fun _ => Keeps.ite (fun _ => hresolve _ _) fun _ => Keeps.pure _

end Resolves

theorem keeps_closes_resolve (now clock : F) (dev : String) (rule : Json F) :
    Keeps Closes (resolve dev rule now clock) := by
  refine keeps_resolve (fun _ _ h hr _ => .of_db_eq h hr) (fun s aid => ?_) dev rule
  refine ⟨.updateAlert fun a _ _ => ⟨rfl, rfl, rfl, ?_⟩, rfl, rfl⟩
  exact a.status.rank_le_resolved

theorem keeps_closes_tick (now clock : F) : Keeps Closes (tick (F := F) now clock) :=
  keeps_tick (keeps_closes_resolve now clock) (keeps_st fun _ _ h hr _ => .of_db_eq h hr)

theorem keeps_closes_onOnline (dev : String) (now clock : F) :
    Keeps Closes (onOnline (F := F) dev now clock) :=
  keeps_onOnline (keeps_closes_resolve now clock) dev

/-! ## The rules that fire -/

/-- The rule has an unresolved alert. -/
def Fired (dev : String) (rule : Json F) (s : Engine F) : Prop :=
  ∃ r, rule.sqlText = .ok r ∧ 1 ≤ s.db.liveCount dev r

theorem Fired.appends {dev : String} {rule : Json F} {s s' : Engine F} (hR : Appends s s')
    (h : Fired dev rule s) : Fired dev rule s' := by
  obtain ⟨r, hr, hlive⟩ := h
  exact ⟨r, hr, Nat.le_trans hlive (hR.1.liveCount_le dev r)⟩

/-- Where it returns, there is a live row. -/
theorem openIfNone_live (dev : String) (rule metric : Option String) (value : Option F)
    (severity message : Json F) (clock : F) :
    Triple (fun _ => True) (openIfNone dev rule metric value severity message clock)
      (fun _ s => 1 ≤ s.db.liveCount dev rule) fun _ => True := by
  refine .bind (Q := fun s₀ s => s₀ = s) (.get fun _ _ => rfl) fun s₀ => .ite (fun _ => ?_) ?_
  · refine .bind (.always _) fun sev => .bind (.always _) fun msg => .modify fun s _ => ?_
    exact Database.createAlert_liveCount
  · refine fun hsome => .pure ?_
    rintro s rfl
    exact Database.liveCount_of_openAlert (by simpa [Option.isSome_iff_ne_none] using hsome)

/-- A condition that holds leaves an alert behind. -/
theorem mark_fired (dev : String) (rule : Json F) (cond : Bool) (now : F)
    (metric : Option String) (value : Option F) (severity message : Json F) (clock : F) :
    Triple (fun _ => True) (mark dev rule cond now metric value severity message clock)
      (fun _ s => cond = true → Fired dev rule s) fun _ => True := by
  refine .bind (.always _) fun _ => .bind (.always _) fun _ => ?_
  refine .ite (fun _ => .ite (fun _ => ?_) fun _ => .raise fun _ _ => trivial) fun hc => ?_
  · refine .bind (.always _) fun _ => .bind (Q := fun r _ => rule.sqlText = .ok r) ?_ fun r => ?_
    · exact .ofExcept (fun r hr _ _ => hr) fun _ _ _ _ => trivial
    · intro s hr
      have h := openIfNone_live dev r metric value severity message clock s trivial
      revert h
      split
      · exact fun hlive _ => ⟨r, hr, hlive⟩
      · exact fun h => h
  · exact .pure fun _ _ hcond => absurd hcond hc

/-- Every name `m` returns has its alert. -/
def Fires (dev : String) (m : EngineM F (List (Json F))) : Prop :=
  Triple (fun _ => True) m (fun names s => ∀ n ∈ names, Fired dev n s) fun _ => True

namespace Fires

variable {dev : String} {α : Type}

theorem nil : Fires dev (pure [] : EngineM F (List (Json F))) :=
  .pure fun _ _ _ h => absurd h List.not_mem_nil

theorem raise (e : PyError) : Fires dev (Proc.raise e : EngineM F (List (Json F))) :=
  Triple.raise fun _ _ => trivial

theorem bind {m : EngineM F α} {f : α → EngineM F (List (Json F))} (h : ∀ a, Fires dev (f a)) :
    Fires dev (m >>= f) := Triple.bind (.always m) h

theorem ite {c : Prop} [Decidable c] {m n : EngineM F (List (Json F))} (hm : Fires dev m)
    (hn : Fires dev n) : Fires dev (if c then m else n) := Triple.ite (fun _ => hm) fun _ => hn

/-- Mark a rule and list it if it is true. -/
theorem mark {rule : Json F} {cond : Bool} {now : F} {metric : Option String} {value : Option F}
    {severity message : Json F} {clock : F} :
    Fires dev (Engine.mark dev rule cond now metric value severity message clock >>= fun _ =>
      pure (if cond then [rule] else [])) := by
  refine Triple.bind (mark_fired _ _ _ _ _ _ _ _ _) fun _ => .pure fun s h n hn => ?_
  cases cond with
  | true => exact List.mem_singleton.mp hn ▸ h rfl
  | false => exact absurd hn List.not_mem_nil

theorem collect {xs : List α} {body : α → EngineM F (List (Json F))}
    (hkeep : ∀ x ∈ xs, Keeps Appends (body x)) (h : ∀ x ∈ xs, Fires dev (body x)) :
    Fires dev (Proc.collect xs body) :=
  Triple.collect hkeep (fun _ _ _ hR => Fired.appends hR) h

/-- What fired before has its alert still. -/
theorem after {m : EngineM F (List (Json F))} (h : Fires dev m) (hkeep : Keeps Appends m)
    (xs : List (Json F)) :
    Triple (fun s => ∀ n ∈ xs, Fired dev n s) m (fun ys s => ∀ n ∈ xs ++ ys, Fired dev n s)
      fun _ => True := by
  have hframe := Triple.frame (I := fun s => ∀ n ∈ xs, Fired dev n s) h hkeep
    fun s s' hR hI n hn => (hI n hn).appends hR
  refine hframe.weaken (fun s hs => ⟨hs, trivial⟩) (fun ys s hs n hn => ?_) fun _ h => h
  exact (List.mem_append.mp hn).elim (hs.1 n) (hs.2 n)

/-- What `on_rate` returns has an alert. -/
theorem onRate (t : Dict String (Json F)) (now clock : F) (rule : String × Json F) :
    Fires dev (Engine.onRate dev t now clock rule) := by
  rw [Engine.onRate]
  dsimp only
  split
  · exact nil
  · refine bind fun _ => bind fun _ => bind fun _ => bind fun _ => bind fun _ => bind fun _ => ?_
    split
    · exact nil
    · exact bind fun _ => bind fun _ => bind fun _ => bind fun _ => mark

theorem onRates (t : Dict String (Json F)) (now clock : F) :
    Fires dev (Engine.onRates dev t now clock) := by
  refine bind fun _ => ?_
  split
  · exact collect (fun _ _ => (sampleFrame_appends dev now clock).onRate t _) fun _ _ =>
       onRate t now clock _
  · exact raise _

variable [PyText F]

/-- What a threshold returns has an alert. -/
theorem onThreshold (t cfg : Dict String (Json F)) (now clock : F) (rule : Json F) :
    Fires dev (Engine.onThreshold dev t cfg now clock rule) := by
  refine bind fun _ => bind fun v => ?_
  split
  · exact nil
  · refine bind fun spec => bind fun thr => ?_
    split
    · exact nil
    · exact bind fun _ => bind fun _ => bind fun _ => mark

theorem onThresholds (t cfg : Dict String (Json F)) (now clock : F) :
    Fires dev (Engine.onThresholds dev t cfg now clock) := by
  refine bind fun _ => bind fun _ => ?_
  exact collect (fun _ _ =>
      (sampleFrame_appends dev now clock).onThreshold t cfg _ fun _ _ _ _ _ _ => trivial)
    fun _ _ => onThreshold t cfg now clock _

/-- The alerts of the fault flags. -/
theorem onFaultFlags (t : Dict String (Json F)) (now clock : F) :
    Fires dev (Engine.onFaultFlags dev t now clock) := by
  refine bind fun _ => bind fun _ => ite (bind fun _ => bind fun sev => ?_) nil
  refine collect (fun f _ => ?_) fun f _ => ?_
  · refine Keeps.ite (fun _ => (Keeps.ofExcept _).bind fun _ => ?_) fun _ => ?_
    · exact ((sampleFrame_appends dev now clock).mark _ _ _ _ _ _ trivial).bind fun _ =>
        Keeps.pure _
    · exact Keeps.bind ((sampleFrame_appends dev now clock).observe _) fun _ => Keeps.pure _
  · refine ite (bind fun bit => ?_) (bind fun _ => nil)
    exact mark

theorem onAnomalyMetric (t : Dict String (Json F)) (now clock : F) (p : AnomalyParams F)
    (severity : Json F) (moving : Bool) (gated : List (Json F)) (metric : Json F) :
    Fires dev (Engine.onAnomalyMetric dev t now clock p severity moving gated metric) := by
  refine bind fun v => ?_
  split
  · exact nil
  · exact bind fun _ => bind fun _ => bind fun _ => bind fun _ => bind fun _ => mark

/-- The alerts of the averages. -/
theorem onAnomaly (t : Dict String (Json F)) (now clock : F) :
    Fires dev (Engine.onAnomaly dev t now clock) := by
  refine bind fun _ => bind fun _ => ite ?_ nil
  refine bind fun p => bind fun gate => bind fun gated => bind fun moving => bind fun _ =>
    bind fun metrics => bind fun severity => ?_
  exact collect (fun _ _ =>
      (sampleFrame_appends dev now clock).onAnomalyMetric t p severity moving gated _)
    fun _ _ => onAnomalyMetric t now clock p severity moving gated _

/-- All alerts of one sample. -/
theorem onTelemetry (t : Dict String (Json F)) (now clock : F) (loss : Option F) :
    Fires dev (Engine.onTelemetry dev t now clock loss) := by
  have hframe := sampleFrame_appends (F := F) dev now clock
  refine bind fun _ => bind fun cfg => ?_
  -- the four families in turn, each after the names collected so far
  refine Triple.bind (onThresholds t cfg now clock) fun a => ?_
  refine Triple.bind ((onFaultFlags t now clock).after (hframe.onFaultFlags t) a) fun b => ?_
  refine Triple.bind ((onRates t now clock).after (hframe.onRates t) (a ++ b)) fun c => ?_
  refine Triple.bind ((onAnomaly t now clock).after (hframe.onAnomaly t) (a ++ b ++ c)) fun d => ?_
  have hloss := (Triple.always (P := fun _ => True) (Engine.onLoss dev loss now clock)).frame
    (I := fun s => ∀ n ∈ a ++ b ++ c ++ d, Fired dev n s) (hframe.onLoss loss)
    fun s s' hR hI n hn => (hI n hn).appends hR
  refine Triple.bind (hloss.weaken (fun s hs => ⟨hs, trivial⟩) (fun _ _ h => h) fun _ h => h)
    fun _ => .pure fun s hs => hs.1

end Fires

/-! ## Results -/

/-- The names in the rules in force and in the stored ones. -/
structure RulesNamed [PyText F] (ok : Json F → Prop) (s : Engine F) : Prop where
  inForce : NamesOk ok s.rules
  stored : ∀ rules, s.db.rules = some rules → NamesOk ok rules

section RulesNamed

variable [PyText F] {ok : Json F → Prop} {s s' : Engine F}

theorem RulesNamed.same (h : RulesNamed ok s) (hsame : SameRules s s') : RulesNamed ok s' :=
  ⟨by rw [hsame.1]; exact h.inForce, by rw [hsame.2]; exact h.stored⟩

theorem rulesNamed_init (hstr : ∀ r, ok (.str r)) {db : Database F}
    (h : ∀ rules, db.rules = some rules → NamesOk ok rules) : RulesNamed ok (init db) := by
  refine ⟨.mergeRules hstr ?_, h⟩
  rcases hrules : db.rules with _ | rules
  · exact fun _ h => absurd h List.not_mem_nil
  · exact h rules hrules

theorem rulesNamed_setRules (hstr : ∀ r, ok (.str r)) {rules : Dict String (Json F)}
    (h : NamesOk ok rules) : RulesNamed ok (setRules rules s).2 := by
  have hmerged := NamesOk.mergeRules hstr h
  exact ⟨hmerged, fun _ h => Option.some.inj h ▸ hmerged⟩

end RulesNamed

variable [PyText F]

/-- A sample or an offline device opens alerts, a tick or a device that comes
    back closes some; the other events leave the alerts alone. -/
theorem step_appends_or_closes {s : Engine F} (e : EngineEvent F) (hok : s.db.AlertsKeyed) :
    s.db.Appends (step s e).db ∨ s.db.Closes (step s e).db := by
  have hnew : Keeps (Appends (F := F)) newSample := Keeps.modify fun _ => .of_db_eq rfl rfl
  cases e with
  | telemetry dev t now clock loss =>
    exact .inl ((sampleFrame_appends dev now clock).onTelemetry t loss _ (namesOk_true _)).1
  | comm dev loss now clock =>
    refine .inl ((hnew.bind fun _ => Keeps.bind ?_ fun _ => Keeps.pure _) s).1
    exact (sampleFrame_appends dev now clock).onComm loss
  | offline dev now clock =>
    refine .inl ((hnew.bind fun _ => Keeps.bind ?_ fun _ => Keeps.pure _) s).1
    exact keeps_onOffline (sampleFrame_appends dev now clock)
  | online dev now clock =>
    exact .inr (((keeps_closes_onOnline dev now clock).bind fun _ => Keeps.pure _) s).1
  | tick now clock => exact .inr (((keeps_closes_tick now clock).bind fun _ => Keeps.pure _) s).1
  | ackAlert aid clock => exact .inr (Database.Closes.ackAlert hok aid clock)
  | setRules rules => exact .inl (.of_alerts_eq rfl rfl)
  | invalidateConfig dev => exact .inl (.of_alerts_eq rfl rfl)
  | restart => exact .inl (.of_alerts_eq rfl rfl)
  | write db => exact .inl (.of_alerts_eq rfl rfl)

theorem step_alertsKeyed {s : Engine F} (e : EngineEvent F) (hok : s.db.AlertsKeyed) :
    (step s e).db.AlertsKeyed :=
  (step_appends_or_closes e hok).elim (·.2 hok) (·.2 hok)

/-- With the names that a TEXT column can hold every alert has its rule. -/
theorem step_alertsOk {s : Engine F} (e : EngineEvent F) (hok : s.db.AlertsOk)
    (hs : RulesNamed TextName s) :
    (step s e).db.AlertsOk ∧ (e.Named → RulesNamed TextName (step s e)) := by
  -- an event opens alerts or closes some, never both
  have hopens : ∀ s', Opens s s' → s'.db.AlertsOk ∧ (e.Named → RulesNamed TextName s') :=
    fun s' h => ⟨h.2 hok, fun _ => hs.same h.1.2⟩
  have hcloses : ∀ s', Closes s s' → s'.db.AlertsOk ∧ (e.Named → RulesNamed TextName s') :=
    fun s' h => ⟨h.1.alertsOk hok, fun _ => hs.same h.2⟩
  have hnew : Keeps (Opens (F := F)) newSample := Keeps.modify fun _ => .of_db_eq rfl rfl
  cases e with
  | telemetry dev t now clock loss =>
    exact hopens _ ((sampleFrame_opens dev now clock).onTelemetry t loss _ hs.inForce)
  | comm dev loss now clock =>
    refine hopens _ ((hnew.bind fun _ => Keeps.bind ?_ fun _ => Keeps.pure _) s)
    exact (sampleFrame_opens dev now clock).onComm loss
  | offline dev now clock =>
    refine hopens _ ((hnew.bind fun _ => Keeps.bind ?_ fun _ => Keeps.pure _) s)
    exact keeps_onOffline (sampleFrame_opens dev now clock)
  | online dev now clock =>
    exact hcloses _ (((keeps_closes_onOnline dev now clock).bind fun _ => Keeps.pure _) s)
  | tick now clock =>
    exact hcloses _ (((keeps_closes_tick now clock).bind fun _ => Keeps.pure _) s)
  | setRules rules =>
    exact ⟨hok.of_alerts_eq rfl rfl, fun he => rulesNamed_setRules textName_str he⟩
  | invalidateConfig dev => exact hopens _ (.of_db_eq rfl rfl)
  | ackAlert aid clock =>
    have hack := Database.Closes.ackAlert hok.toAlertsKeyed aid clock
    exact hcloses _ ⟨hack, rfl, Database.ackAlert_rules s.db aid clock⟩
  | restart =>
    have hinit := rulesNamed_init textName_str hs.stored
    exact ⟨hok, fun _ => ⟨hinit.inForce, hinit.stored⟩⟩
  | write db => exact ⟨hok.of_alerts_eq rfl rfl, fun _ => ⟨hs.inForce, hs.stored⟩⟩

/-- From the empty tables on, over every run. -/
theorem run_alertsOk {events : List (EngineEvent F)} (hevents : ∀ e ∈ events, e.Named) :
    (run events).db.AlertsOk ∧ RulesNamed TextName (run events) := by
  have hsteps : AllSteps step (fun _ e => e.Named) (init (F := F) {}) events :=
    .of_forall fun e he _ => hevents e he
  refine hsteps.invariant (P := fun s => s.db.AlertsOk ∧ RulesNamed TextName s)
    (fun s e he hs => ?_) ⟨Database.alertsOk_empty, rulesNamed_init textName_str nofun⟩
  obtain ⟨hok, hnamed⟩ := step_alertsOk e hs.1 hs.2
  exact ⟨hok, hnamed he⟩

/-- Across an event every old alert stays in its place and moves forward at
    most, and every new alert is open. -/
structure Lifecycle (old new : List (AlertRow F)) : Prop where
  moves : List.Forall₂ AlertRow.Moves old (new.take old.length)
  opened : ∀ a ∈ new.drop old.length, a.status = .opened

omit [PyFloat F] [PyText F] in
/-- Rows that are added at the end or updated in place go through the lifecycle. -/
theorem Lifecycle.of_appends_or_closes {db db' : Database F}
    (h : db.Appends db' ∨ db.Closes db') : Lifecycle db.alerts db'.alerts := by
  rcases h with ⟨⟨new, hnew, hopen⟩, -⟩ | ⟨hmoves, -⟩
  · constructor
    · rw [hnew, List.take_left]
      exact List.forall₂_same.mpr fun a _ => .refl a
    · rw [hnew, List.drop_left]
      exact hopen
  · have hlen := hmoves.length_eq
    constructor
    · rw [hlen, List.take_length]
      exact hmoves
    · rw [hlen, List.drop_length]
      exact fun a ha => absurd ha List.not_mem_nil

/-- The property of a state: one alert is live for a (device, rule) at most,
    the next event moves alerts forward only, and after the next sample every
    rule it lists has exactly one unresolved alert. -/
structure AlertsRight (s : Engine F) : Prop where
  unique : ∀ dev rule, s.db.liveCount dev rule ≤ 1
  forward : ∀ e, Lifecycle s.db.alerts (step s e).db.alerts
  fired : ∀ dev t now clock loss names,
    (handle (.telemetry dev t now clock loss) s).1 = .ok names →
    ∀ n ∈ names, ∃ r, n.sqlText = .ok (some r) ∧
      (step s (.telemetry dev t now clock loss)).db.liveCount dev (some r) = 1

/-- Every run: one live row for a device and a rule, rows that only move on, and an alert behind
    each name that a sample returns. -/
theorem run_alertsRight {events : List (EngineEvent F)} (hevents : ∀ e ∈ events, e.Named) :
    AlertsRight (run events) := by
  obtain ⟨hok, hnamed⟩ := run_alertsOk hevents
  refine ⟨hok.liveCount_le_one, fun e => ?_, fun dev t now clock loss names hrun n hn => ?_⟩
  · exact .of_appends_or_closes (step_appends_or_closes e hok.toAlertsKeyed)
  · have hfires : Fires dev (handle (.telemetry dev t now clock loss)) :=
      .bind fun _ => .onTelemetry t now clock loss
    have hnames := hfires (run events) trivial
    have hpair : handle (.telemetry dev t now clock loss) (run events) =
        (.ok names, step (run events) (.telemetry dev t now clock loss)) := by
      rw [← hrun]
      rfl
    rw [hpair] at hnames
    have hok' := (step_alertsOk (.telemetry dev t now clock loss) hok hnamed).1
    obtain ⟨r, hr, hlive⟩ := hnames n hn
    rcases r with _ | r
    · rw [hok'.liveCount_none dev] at hlive
      exact absurd hlive (by omega)
    · exact ⟨r, hr, Nat.le_antisymm (hok'.unique dev r) hlive⟩

/-- An overtemperature, twice, an acknowledgement and a restart between. -/
def hotRun : List (EngineEvent ℚ) :=
  [.telemetry "ECU-1" [("temp_c", .float 95)] 1 1 none, .ackAlert 1 2, .restart,
   .telemetry "ECU-1" [("temp_c", .float 96)] 3 3 none]

theorem hotRun_alertsRight :
    AlertsRight (run hotRun) ∧ (run hotRun).db.liveCount "ECU-1" (some "temp_high") = 1 := by
  refine ⟨run_alertsRight ?_, by decide +kernel⟩
  intro e he
  simp only [hotRun, List.mem_cons, List.not_mem_nil, or_false] at he
  rcases he with rfl | rfl | rfl | rfl <;> trivial

/-- A threshold rule with the name NaN, as Python's JSON parser reads it. -/
def nanNameRules : Dict String (Json (Option ℚ)) :=
  [("thresholds",
    .arr [.obj [("name", .float none), ("metric", .str "temp_c"), ("value", .int 90)]])]

def nanNameRun : List (EngineEvent (Option ℚ)) :=
  [.setRules nanNameRules,
   .telemetry "ECU-1" [("temp_c", .float (some 95))] (some 1) (some 1) none,
   .telemetry "ECU-1" [("temp_c", .float (some 95))] (some 2) (some 2) none]

/-- The two samples open two alerts. -/
theorem nanNameRun_not_alertsRight : ¬ AlertsRight (run nanNameRun) := by
  intro h
  have htwo : (run nanNameRun).db.liveCount "ECU-1" none = 2 := by decide +kernel
  have hone := h.unique "ECU-1" none
  omega

end Engine

end EcuTelemetry.Backend
