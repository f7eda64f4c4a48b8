/-
  EcuTelemetry.Backend.RateWindow

  The rate-of-change rule over a run.  The history of a metric is trimmed from the
  front on every sample and searched from the front for a sample that is a window
  old; what is kept and what is found are those of the whole past, however the
  samples are spread in time.
-/

import EcuTelemetry.Backend.HelloModels
import EcuTelemetry.Backend.RealFloat
import EcuTelemetry.Backend.RuleSafety
import EcuTelemetry.Lib.TimeWindow

namespace EcuTelemetry.Backend.Engine

open Proc TimeWindow

variable {F : Type} [Field F] [LinearOrder F] [IsStrictOrderedRing F] [PyFloat F] [ExactFloat F]

/-! ## The window -/

/-- The oldest sample between one and two windows ago. -/
def reference (w now : F) (past : List (F × F)) : Option (F × F) :=
  past.find? fun e => decide (w ≤ now - e.1) && decide (now - e.1 ≤ 2 * w)

/-- The loop that drops old samples stops at the first that is recent enough. -/
theorem trimHist_eq {w now x : F} (hw : 0 ≤ w) {past : List (F × F)}
    (h : Ordered (past ++ [(now, x)])) :
    trimHist now w (past ++ [(now, x)]) = since (now - 2 * w) (past ++ [(now, x)]) := by
  -- what the loop drops is older than twice the window
  have hdrop : ∀ a : F × F, PyFloat.lt (PyFloat.mul w (PyFloat.ofRat 2))
      (PyFloat.sub now a.1) = true ↔
      a.1 < now - 2 * w := by
    intro a
    rw [ExactFloat.lt_iff, ExactFloat.mul_eq, ExactFloat.sub_eq, ExactFloat.ofRat_eq]
    constructor
    · intro hlt
      norm_num at hlt
      linarith
    · intro hlt
      norm_num
      linarith
  induction past with
  | nil =>
    refine (since_eq_self fun e he => ?_).symm
    rw [List.mem_singleton.mp he]
    dsimp only
    linarith
  | cons a past ih =>
    obtain ⟨b, rest, hrest⟩ : ∃ b rest, past ++ [(now, x)] = b :: rest := by
      cases past with
      | nil => exact ⟨_, _, rfl⟩
      | cons b past => exact ⟨_, _, rfl⟩
    rw [List.cons_append] at h ⊢
    rw [since_cons h, hrest, trimHist, ← hrest]
    -- the times are in order, so it stops at the first sample that stays
    by_cases hlt : a.1 < now - 2 * w
    · rw [if_pos hlt, if_pos ((hdrop a).mpr hlt), ih h.of_cons]
    · rw [if_neg hlt, if_neg fun hd => hlt ((hdrop a).mp hd)]

/-- The search over the history finds the reference. -/
theorem find?_since {w now x : F} (hw : 0 < w) (past : List (F × F)) :
    (since (now - 2 * w) (past ++ [(now, x)])).find?
      (fun e => PyFloat.le w (PyFloat.sub now e.1)) = reference w now past := by
  have hle : ∀ e : F × F, PyFloat.le w (PyFloat.sub now e.1) = decide (w ≤ now - e.1) := by
    intro e
    rw [Bool.eq_iff_iff, ExactFloat.le_iff, ExactFloat.sub_eq, decide_eq_true_iff]
  -- the sample itself is no window old
  have hself : ¬ w ≤ now - now := by
    rw [sub_self]
    exact not_le.mpr hw
  have hlast : [(now, x)].find? (fun e => decide (now - 2 * w ≤ e.1) && decide (w ≤ now - e.1)) =
      none := by
    rw [List.find?_singleton, if_neg]
    simp only [decide_eq_false hself, Bool.and_false, Bool.false_eq_true, not_false_iff]
  simp only [hle, since, List.find?_filter, List.find?_append, decide_eq_true_eq, Bool.decide_and]
  rw [hlast, Option.or_none, reference]
  congr 1
  funext e
  rw [Bool.and_comm]
  congr 1
  exact decide_eq_decide.mpr ⟨fun h => by linarith, fun h => by linarith⟩

/-! ## What a rule leaves behind -/

/-- The history of a metric. -/
def history (s : Engine F) (dev metric : String) : List (F × F) :=
  (Dict.get? (s.record dev).rateHist metric).getD []

/-- The name of a rate rule. -/
def rateName (metric : String) : Json F := .str ("rate:" ++ metric)

omit [Field F] [LinearOrder F] [IsStrictOrderedRing F] [PyFloat F] [ExactFloat F] in
theorem rateName_ne {metric other : String} (h : other ≠ metric) :
    (rateName other : Json F) ≠ rateName metric := by
  intro heq
  have htext : "rate:" ++ other = "rate:" ++ metric := Json.str.inj heq
  exact h ((String.append_right_inj _).mp htext)

/-- Ready, with a history of the metric; its rule has been judged or not since the
    evaluations `o`. -/
structure Windowed (r : Dict String (Json F)) (dev metric : String) (o : List (Observation F))
    (hist : List (F × F)) (judged : Prop) (s : Engine F) : Prop where
  ready : Ready r s
  history : s.history dev metric = hist
  observed : ∃ new, s.observed = new ++ o ∧ ((∃ e ∈ new, e.rule = rateName metric) ↔ judged)

/-- The evaluations stay as they are. -/
def SameObserved (s s' : Engine F) : Prop := s'.observed = s.observed

omit [Field F] [LinearOrder F] [IsStrictOrderedRing F] [PyFloat F] [ExactFloat F] in
instance : IsPreorder (Engine F) (SameObserved (F := F)) where
  refl _ := rfl
  trans _ _ _ h h' := Eq.trans h' h

omit [Field F] [LinearOrder F] [IsStrictOrderedRing F] [PyFloat F] [ExactFloat F] in
theorem keeps_sameObserved_st (dev : String) : Keeps SameObserved (st (F := F) dev) := by
  intro s
  obtain ⟨D, hrun, -⟩ := st_run dev s
  rw [hrun]
  rfl

omit [Field F] [LinearOrder F] [IsStrictOrderedRing F] [PyFloat F] [ExactFloat F] in
theorem keeps_sameObserved_modifySt (dev : String) (f : DeviceState F → DeviceState F) :
    Keeps SameObserved (modifySt dev f) :=
  (keeps_sameObserved_st dev).bind fun _ => Keeps.modify fun _ => rfl

omit [Field F] [LinearOrder F] [IsStrictOrderedRing F] [ExactFloat F] in
/-- One evaluation is recorded. -/
theorem mark_observed (dev : String) (rule : Json F) (cond : Bool) (now : F)
    (metric : Option String) (value : Option F) (severity message : Json F) (clock : F)
    (s : Engine F) : ∃ o, o.rule = rule ∧
      (mark dev rule cond now metric value severity message clock s).2.observed =
        o :: s.observed := by
  obtain ⟨D, hst, -⟩ := st_run dev s
  refine ⟨{ sample := s.samples, deviceId := dev, rule := rule, cond := cond, time := now }, rfl,
    ?_⟩
  rw [mark, bind_run_ok hst, observe, modify_bind_run]
  -- what follows the observation adds none
  have hrest : Keeps (SameObserved (F := F)) (if cond = true then
      if rule.hashable = true then do
        modifySt dev fun d => { d with active := Dict.set d.active rule now }
        let r ← Proc.ofExcept rule.sqlText
        openIfNone dev r metric value severity message clock
      else Proc.raise .typeError
    else Pure.pure ()) := by
    refine Keeps.ite (fun _ => Keeps.ite (fun _ => ?_) fun _ => Keeps.raise _) fun _ => Keeps.pure _
    refine (keeps_sameObserved_modifySt dev _).bind fun _ => (Keeps.ofExcept _).bind fun _ =>
      Keeps.get.bind fun s => ?_
    exact Keeps.when fun _ => (Keeps.ofExcept _).bind fun _ => (Keeps.ofExcept _).bind fun _ =>
      Keeps.modify fun _ => rfl
  exact hrest _

section Windowed

variable {r : Dict String (Json F)} {dev metric : String} {o : List (Observation F)}
  {hist : List (F × F)} {judged : Prop} {t : Dict String (Json F)} {E : Engine F → Prop}

omit [Field F] [LinearOrder F] [IsStrictOrderedRing F] [ExactFloat F] in
/-- Reading the record. -/
theorem windowed_st : Triple (Windowed r dev metric o hist judged) (st dev)
    (fun d s => (Dict.get? d.rateHist metric).getD [] = hist ∧
      Windowed r dev metric o hist judged s)
    E := by
  intro s h
  obtain ⟨D, hrun, -⟩ := st_run dev s
  have hst : Triple (Ready r) (st dev) (fun d s => DeviceOk d ∧ Ready r s) E := ready_st
  have hready := hst s h.ready
  have hrecord := record_st dev dev s
  have hobserved : (st dev s).2.observed = s.observed := keeps_sameObserved_st dev s
  rw [hrun] at hready hrecord hobserved ⊢
  have hhistory : ({ s with devices := D } : Engine F).history dev metric = hist := by
    rw [Engine.history, hrecord]
    exact h.history
  exact ⟨h.history, hready.2, hhistory, hobserved ▸ h.observed⟩

omit [Field F] [LinearOrder F] [IsStrictOrderedRing F] [ExactFloat F] in
/-- A history is replaced. -/
theorem windowed_setHistory (key : String) (hist' : List (F × F)) :
    Triple (Windowed r dev metric o hist judged)
      (modifySt dev fun d => { d with rateHist := Dict.set d.rateHist key hist' })
      (fun _ => Windowed r dev metric o (if key = metric then hist' else hist) judged) E := by
  intro s h
  -- the update stays folded while the write is run
  obtain ⟨f, hf⟩ : ∃ f : DeviceState F → DeviceState F,
      (fun d => { d with rateHist := Dict.set d.rateHist key hist' }) = f := ⟨_, rfl⟩
  have hmodify : Triple (Ready r) (modifySt dev f) (fun _ => Ready r) E :=
    ready_modifySt fun d hd => hf ▸ ⟨hd.var, hd.active⟩
  rw [hf]
  obtain ⟨D, hrun, -⟩ := modifySt_run dev f s
  have hready := hmodify s h.ready
  have hrecord := record_modifySt dev dev f s
  have hobserved := keeps_sameObserved_modifySt dev f s
  rw [hrun] at hready hrecord hobserved ⊢
  refine ⟨hready, ?_, (show _ = s.observed from hobserved) ▸ h.observed⟩
  rw [if_pos rfl] at hrecord
  rw [Engine.history, hrecord, ← hf]
  dsimp only
  by_cases hkey : key = metric
  · rw [if_pos hkey, hkey, Dict.get?_set_self (.of_lawful metric)]
    rfl
  · rw [if_neg hkey, Dict.get?_set_ne (.of_lawful key) (.of_lawful metric) hkey]
    exact h.history

omit [Field F] [LinearOrder F] [IsStrictOrderedRing F] [ExactFloat F] in
/-- A rule is judged. -/
theorem windowed_mark {rule severity message : Json F} {cond : Bool}
    (h : cond = true → rule.hashable = true ∧ rule.Storable ∧ severity.Storable ∧
      message.Storable) (now : F) (field : Option String) (value : Option F) (clock : F) :
    Triple (Windowed r dev metric o hist judged)
      (mark dev rule cond now field value severity message clock)
      (fun _ => Windowed r dev metric o hist (rule = rateName metric ∨ judged)) E := by
  intro s hs
  have hmark : Triple (Ready r) (mark dev rule cond now field value severity message clock)
      (fun _ => Ready r) E :=
    ready_mark (fun hcond => ⟨(h hcond).1, (h hcond).2.1, .inl (h hcond).2.2⟩) now field value clock
  have hready := hmark s hs.ready
  -- `_mark` writes no history
  have hquiet : Quiet dev (fun _ => False) (fun _ => False) s _ :=
    keeps_quiet_mark dev rule cond now field value severity message clock s
  obtain ⟨e, he, hobserved⟩ := mark_observed dev rule cond now field value severity message clock s
  -- an alert that cannot be stored raises, and nothing more is claimed
  rcases hrun : mark dev rule cond now field value severity message clock s with ⟨err | _, s'⟩
  · rw [hrun] at hready
    exact hready
  rw [hrun] at hready hquiet hobserved
  obtain ⟨new, hnew, hiff⟩ := hs.observed
  refine ⟨hready, ?_, e :: new, ?_, ?_⟩
  · rw [Engine.history, hquiet.histories metric id]
    exact hs.history
  · show s'.observed = _
    rw [hobserved, hnew, List.cons_append]
  · rw [← hiff, ← he]
    exact List.exists_mem_cons_iff ..

omit [Field F] [LinearOrder F] [IsStrictOrderedRing F] [ExactFloat F] in
/-- A number of the sample as a float. -/
theorem windowed_toFloat {key : String} {v : Json F} (hkey : key ∈ NUMERIC_FIELDS)
    (hget : Dict.get? t key = some v) :
    Triple (Windowed r dev metric o hist judged) (Proc.ofExcept v.toFloat)
      (fun x s => v.toFloat = .ok x ∧ Windowed r dev metric o hist judged s) (OutOfRange r t) := by
  refine Triple.ofExcept (fun x hx _ h => ⟨hx, h⟩) fun e he s h => ⟨h.ready, fun hrange => ?_⟩
  obtain ⟨x, hx⟩ := hrange key hkey v hget
  rw [he] at hx
  cases hx

/-- The rule of another metric. -/
theorem windowed_onRate_other (ht : Sampled t) (now clock : F) {rule : String × Json F}
    (hrule : RateOk rule) (hne : rule.1 ≠ metric) :
    Triple (Windowed r dev metric o hist judged) (onRate dev t now clock rule)
      (fun names s => rateName metric ∉ names ∧ Windowed r dev metric o hist judged s)
      (OutOfRange r t) := by
  -- the ways through `on_rate` that evaluate nothing
  have hnot : Triple (Windowed r dev metric o hist judged)
      (Pure.pure [] : EngineM F (List (Json F)))
      (fun names s => rateName metric ∉ names ∧ Windowed r dev metric o hist judged s)
      (OutOfRange r t) := Triple.pure fun _ h => ⟨List.not_mem_nil, h⟩
  rw [onRate]
  dsimp only
  rcases hget : Dict.get? t rule.1 with _ | v
  · exact hnot
  obtain ⟨hnumeric, kvs, hkvs, window, hwindow, hpositive, hreached⟩ :=
    hrule (ht.fields rule.1 (by rw [hget]; rfl))
  dsimp only
  rw [hkvs]
  refine (windowed_toFloat hnumeric hget).bind fun x => Triple.of_and fun _ => ?_
  refine windowed_st.bind fun d => Triple.of_and fun _ => ?_
  -- its own history is another entry of the dictionary
  have hset : ∀ hist', Triple (Windowed r dev metric o hist judged)
      (modifySt dev fun d => { d with rateHist := Dict.set d.rateHist rule.1 hist' })
      (fun _ => Windowed r dev metric o hist judged) (OutOfRange r t) := by
    intro hist'
    have hset : Triple (Windowed r dev metric o hist judged)
        (modifySt dev fun d => { d with rateHist := Dict.set d.rateHist rule.1 hist' })
        (fun _ => Windowed r dev metric o (if rule.1 = metric then hist' else hist) judged)
        (OutOfRange r t) := windowed_setHistory rule.1 hist'
    rw [if_neg hne] at hset
    exact hset
  refine (hset _).bind fun _ => Triple.ok_bind (a := entry kvs "window_s" (lit 5.0)) rfl
    (Triple.ok_bind hwindow ((hset _).bind fun _ => ?_))
  split
  · exact hnot
  · next ref href =>
    have hle : PyFloat.le window (PyFloat.sub now ref.1) = true := by
      simpa using List.find?_some href
    obtain ⟨lim, hlim, hseverity⟩ := hreached _ hle
    obtain ⟨rate, hrate⟩ := IeeeFloat.div_ok (PyFloat.sub x ref.2) (PyFloat.sub now ref.1)
      (IeeeFloat.pos_of_le _ _ hle hpositive)
    refine Triple.ok_bind hrate (Triple.ok_bind (a := entry kvs "max_per_s" (lit 2.0)) rfl
      (Triple.ok_bind hlim (Triple.ok_bind (a := entry kvs "severity" (.str "warn")) rfl ?_)))
    -- evaluated under the name of the other metric
    refine (windowed_mark (fun hcond => ?_) now _ _ clock).bind fun _ => Triple.pure fun s h => ?_
    · exact ⟨rfl, Json.storable_str _, hseverity rate hcond, Json.storable_str _⟩
    · have hname : (Json.str ("rate:" ++ rule.1) : Json F) ≠ rateName metric := rateName_ne hne
      refine ⟨fun hmem => ?_, h.ready, h.history, ?_⟩
      · split at hmem
        · exact hname (List.mem_singleton.mp hmem).symm
        · exact List.not_mem_nil hmem
      · simpa only [hname, false_or] using h.observed

/-- The rate to the oldest sample of the window exceeds the limit. -/
def Exceeds (w lim now x : F) (past : List (F × F)) : Prop :=
  ∃ ref, reference w now past = some ref ∧ lim < (x - ref.2) / (now - ref.1)

/-- The rule has been judged as it should, and its history is cut to the window. -/
def Rated (r : Dict String (Json F)) (dev metric : String) (o : List (Observation F))
    (hist : List (F × F)) (w lim now x : F) (names : List (Json F)) (s : Engine F) : Prop :=
  (rateName metric ∈ names ↔ Exceeds w lim now x hist) ∧
    Windowed r dev metric o (since (now - 2 * w) (hist ++ [(now, x)]))
      (reference w now hist).isSome s

/-- The rule of the metric. -/
theorem windowed_onRate_own (ht : Sampled t) {now clock w lim x : F} {v : Json F}
    {spec : Dict String (Json F)} (hrule : RateOk (metric, .obj spec))
    (hget : Dict.get? t metric = some v) (hx : v.toFloat = .ok x)
    (hw : (entry spec "window_s" (lit 5.0)).toFloat = .ok w) (hpos : 0 < w)
    (hlim : (entry spec "max_per_s" (lit 2.0)).toFloat = .ok lim)
    (hord : Ordered (hist ++ [(now, x)])) :
    Triple (Windowed r dev metric o hist False) (onRate dev t now clock (metric, .obj spec))
      (Rated r dev metric o hist w lim now x) (OutOfRange r t) := by
  obtain ⟨hnumeric, kvs, hkvs, window, hwindow, -, hreached⟩ :=
    hrule (ht.fields metric (by rw [hget]; rfl))
  obtain rfl : spec = kvs := Json.obj.inj hkvs
  obtain rfl : w = window := Except.ok.inj (hw.symm.trans hwindow)
  -- both writes of the history, before and after it is trimmed
  have hset : ∀ {h : List (F × F)} (hist' : List (F × F)), Triple (Windowed r dev metric o h False)
      (modifySt dev fun d => { d with rateHist := Dict.set d.rateHist metric hist' })
      (fun _ => Windowed r dev metric o hist' False) (OutOfRange r t) := by
    intro h hist'
    have hset : Triple (Windowed r dev metric o h False)
        (modifySt dev fun d => { d with rateHist := Dict.set d.rateHist metric hist' })
        (fun _ => Windowed r dev metric o (if metric = metric then hist' else h) False)
        (OutOfRange r t) := windowed_setHistory metric hist'
    rw [if_pos rfl] at hset
    exact hset
  rw [onRate]
  dsimp only
  rw [hget]
  refine Triple.ok_bind hx (windowed_st.bind fun d => Triple.of_and fun hd => ?_)
  rw [hd]
  refine (hset _).bind fun _ => Triple.ok_bind (a := entry spec "window_s" (lit 5.0)) rfl
    (Triple.ok_bind hw ?_)
  -- what the loop over the history finds is `reference`
  rw [trimHist_eq hpos.le hord]
  refine (hset _).bind fun _ => ?_
  rw [find?_since hpos hist]
  -- without a sample old enough nothing is evaluated
  rcases href : reference w now hist with _ | ref
  · refine Triple.pure fun s h => ⟨?_, h.ready, h.history, ?_⟩
    · refine ⟨fun hmem => absurd hmem List.not_mem_nil, fun hexceeds => ?_⟩
      obtain ⟨ref, hsome, -⟩ := hexceeds
      rw [href] at hsome
      cases hsome
    · simpa [href] using h.observed
  · -- the sample it is measured against is at least a window old
    have hold : w ≤ now - ref.1 := by
      have hfound := List.find?_some href
      simp only [Bool.and_eq_true, decide_eq_true_eq] at hfound
      exact hfound.1
    have hdiv := ExactFloat.div_eq (PyFloat.sub x ref.2) (PyFloat.sub now ref.1)
      (by rw [ExactFloat.sub_eq]; exact (lt_of_lt_of_le hpos hold).ne')
    obtain ⟨lim', hlim', hseverity⟩ := hreached (now - ref.1) ((ExactFloat.le_iff _ _).mpr hold)
    obtain rfl : lim = lim' := Except.ok.inj (hlim.symm.trans hlim')
    refine Triple.ok_bind hdiv (Triple.ok_bind (a := entry spec "max_per_s" (lit 2.0)) rfl
      (Triple.ok_bind hlim (Triple.ok_bind (a := entry spec "severity" (.str "warn")) rfl ?_)))
    -- one evaluation, of the rule by its own name
    refine (windowed_mark (fun hcond => ?_) now _ _ clock).bind fun _ => Triple.pure fun s h => ?_
    · exact ⟨rfl, Json.storable_str _, hseverity _ hcond, Json.storable_str _⟩
    refine ⟨?_, h.ready, h.history, ?_⟩
    -- the condition evaluated is `Exceeds`
    · have hiff : Exceeds w lim now x hist ↔ PyFloat.lt lim
          (PyFloat.sub x ref.2 / PyFloat.sub now ref.1) = true := by
        rw [ExactFloat.lt_iff, ExactFloat.sub_eq, ExactFloat.sub_eq]
        constructor
        · rintro ⟨ref', hsome, hlt⟩
          rw [href] at hsome
          cases hsome
          exact hlt
        · exact fun hlt => ⟨ref, href, hlt⟩
      rw [hiff]
      split
      · next hlt => exact iff_of_true (List.mem_singleton.mpr rfl) hlt
      · next hlt => exact iff_of_false List.not_mem_nil hlt
    · obtain ⟨new, hnew, hjudged⟩ := h.observed
      exact ⟨new, hnew, hjudged.trans (iff_of_true (.inl rfl) (by rw [href]; rfl))⟩

/-- The rules of other metrics. -/
theorem windowed_others (ht : Sampled t) (now clock : F) {rules : List (String × Json F)}
    (hrules : ∀ rule ∈ rules, RateOk rule) (hne : ∀ rule ∈ rules, rule.1 ≠ metric) :
    Triple (Windowed r dev metric o hist judged) (collect rules (onRate dev t now clock))
      (fun names s => rateName metric ∉ names ∧ Windowed r dev metric o hist judged s)
      (OutOfRange r t) := by
  induction rules with
  | nil => exact Triple.pure fun _ h => ⟨List.not_mem_nil, h⟩
  | cons rule rules ih =>
    obtain ⟨hrule, hrules⟩ := List.forall_mem_cons.mp hrules
    obtain ⟨hother, hne⟩ := List.forall_mem_cons.mp hne
    refine (windowed_onRate_other ht now clock hrule hother).bind fun a =>
      Triple.of_and fun ha => ?_
    refine (ih hrules hne).bind fun b => Triple.of_and fun hb => Triple.pure fun _ h => ⟨?_, h⟩
    exact fun hmem => (List.mem_append.mp hmem).elim ha hb

/-- The rate rules on one sample. -/
theorem windowed_onRates [PyText F] (ht : Sampled t) (hr : RulesOk r) {now clock w lim x : F}
    {v : Json F}
    {rates spec : Dict String (Json F)} (hrates : Dict.get? r "rate" = some (.obj rates))
    (hdist : Dict.Distinct rates) (hspec : Dict.get? rates metric = some (.obj spec))
    (hget : Dict.get? t metric = some v) (hx : v.toFloat = .ok x)
    (hw : (entry spec "window_s" (lit 5.0)).toFloat = .ok w) (hpos : 0 < w)
    (hlim : (entry spec "max_per_s" (lit 2.0)).toFloat = .ok lim)
    (hord : Ordered (hist ++ [(now, x)])) :
    Triple (Windowed r dev metric o hist False) (onRates dev t now clock)
      (Rated r dev metric o hist w lim now x) (OutOfRange r t) := by
  have hmem := Dict.get?_mem (.of_lawful metric) hspec
  obtain ⟨before, after, hsplit⟩ := List.append_of_mem hmem
  have hor : Json.orElse (some (.obj rates)) (.obj []) = (.obj rates : Json F) := by
    rw [Json.orElse, if_pos]
    rw [hsplit]
    cases before <;> rfl
  obtain ⟨rates', hrates', hok⟩ := hr.rates
  rw [hrates, hor] at hrates'
  obtain rfl := Json.obj.inj hrates'
  -- the rounds before and after are of other metrics
  rw [Dict.Distinct, hsplit, List.map_append, List.map_cons] at hdist
  have hbefore : ∀ rule ∈ before, rule.1 ≠ metric := fun rule hrule heq =>
    (List.nodup_append.mp hdist).2.2 rule.1 (List.mem_map_of_mem hrule)
      metric List.mem_cons_self heq
  have hafter : ∀ rule ∈ after, rule.1 ≠ metric := by
    intro rule hrule heq
    have hkey : rule.1 ∈ after.map Prod.fst := List.mem_map_of_mem hrule
    exact (List.nodup_cons.mp (List.nodup_append.mp hdist).2.1).1 (heq ▸ hkey)
  have hokBefore : ∀ rule ∈ before, RateOk rule :=
    fun rule hrule => hok rule (hsplit ▸ List.mem_append_left _ hrule)
  have hokAfter : ∀ rule ∈ after, RateOk rule :=
    fun rule hrule => hok rule (hsplit ▸ List.mem_append_right _ (List.mem_cons_of_mem _ hrule))
  have hrounds : Triple (Windowed r dev metric o hist False)
      (collect rates (onRate dev t now clock))
      (Rated r dev metric o hist w lim now x) (OutOfRange r t) := by
    rw [hsplit, collect_append]
    have hown : Triple (Windowed r dev metric o hist False)
        (collect ((metric, .obj spec) :: after) (onRate dev t now clock))
        (Rated r dev metric o hist w lim now x) (OutOfRange r t) := by
      refine (windowed_onRate_own ht (hok _ hmem) hget hx hw hpos hlim hord).bind fun b =>
        Triple.of_and fun hb => (windowed_others ht now clock hokAfter hafter).bind fun c =>
          Triple.of_and fun hc => Triple.pure fun s h => ⟨?_, h⟩
      rw [List.mem_append, hb]
      exact or_iff_left hc
    refine (windowed_others ht now clock hokBefore hbefore).bind fun a => Triple.of_and fun ha =>
      hown.bind fun b => Triple.of_and fun hb => Triple.pure fun s h => ⟨?_, h⟩
    rw [List.mem_append, hb]
    exact or_iff_right ha
  refine Triple.bind (Q := fun s₁ s => s₁.rules = r ∧ Windowed r dev metric o hist False s)
    (Triple.get fun _ h => ⟨h.ready.rules, h⟩) fun s => Triple.of_and fun hs => ?_
  rw [hs, hrates, hor]
  exact hrounds

end Windowed

/-! ## One sample -/

section Sample

variable [PyText F] {r : Dict String (Json F)} {dev metric : String} {t : Dict String (Json F)}

/-- `on_telemetry` up to the rate rules. -/
def beforeRates (dev : String) (t : Dict String (Json F)) (now clock : F) :
    EngineM F (List (Json F)) := do
  let _ ← st dev
  let cfg ← configFor dev
  let byThreshold ← onThresholds dev t cfg now clock
  let byFlag ← onFaultFlags dev t now clock
  return byThreshold ++ byFlag

omit [Field F] [LinearOrder F] [IsStrictOrderedRing F] [ExactFloat F] in
/-- `on_telemetry` in four parts, with the rate rules apart. -/
theorem onTelemetry_eq (dev : String) (t : Dict String (Json F)) (now clock : F) (loss : Option F) :
    onTelemetry dev t now clock loss = (do
      let before ← beforeRates dev t now clock
      let byRate ← onRates dev t now clock
      let byAnomaly ← onAnomaly dev t now clock
      onLoss dev loss now clock
      return before ++ byRate ++ byAnomaly) := by
  simp only [onTelemetry, beforeRates, bind_assoc, pure_bind]

omit [Field F] [LinearOrder F] [IsStrictOrderedRing F] [ExactFloat F] in
/-- What comes before the rate rules. -/
theorem within_beforeRates [IeeeFloat F] {avg hist : String → Prop} {s₀ : Engine F}
    (ht : Sampled t) (now clock : F) (hr : RulesOk r) :
    Triple (Within r dev avg hist s₀) (beforeRates dev t now clock)
      (fun _ => Within r dev avg hist s₀) (OutOfRange r t) := by
  refine Triple.bind (Q := fun _ => Within r dev avg hist s₀)
    (within_st.weaken (fun _ h => h) (fun _ _ h => h.2) fun _ h => h) fun _ => ?_
  refine within_configFor.bind fun cfg => Triple.of_and fun hcfg => ?_
  refine (within_onThresholds ht hcfg now clock hr).bind fun _ =>
    (within_onFaultFlags ht now clock hr).bind fun _ => Triple.pure fun _ h => h

omit [Field F] [LinearOrder F] [IsStrictOrderedRing F] [ExactFloat F] in
/-- What is left of a sample after the rate rules. -/
theorem within_afterRates [IeeeFloat F] {hist : String → Prop} {s₀ : Engine F} (ht : Sampled t)
    (now clock : F) (loss : Option F) (hr : RulesOk r) :
    Triple (Within r dev (fun _ => True) hist s₀)
      (do
        let byAnomaly ← onAnomaly dev t now clock
        onLoss dev loss now clock
        return byAnomaly)
      (fun _ => Within r dev (fun _ => True) hist s₀) (OutOfRange r t) :=
  (within_onAnomaly ht now clock hr fun _ => trivial).bind fun _ =>
    (within_onLoss loss now clock hr).bind fun _ => Triple.pure fun _ h => h

omit [Field F] [LinearOrder F] [IsStrictOrderedRing F] [ExactFloat F] [PyText F] in
/-- A procedure that cannot raise on this sample. -/
theorem exists_run_of_inRange {α : Type} {P : Engine F → Prop} {Q : α → Engine F → Prop}
    {m : EngineM F α} (hrange : InRange t) (h : Triple P m Q (OutOfRange r t)) {s : Engine F}
    (hs : P s) : ∃ a s', m s = (.ok a, s') ∧ Q a s' := by
  have h := h s hs
  rcases hrun : m s with ⟨e | a, s'⟩
  · rw [hrun] at h
    exact absurd hrange h.2
  · rw [hrun] at h
    exact ⟨a, s', rfl, h⟩

/-- What the rule of a metric does on a sample, by all samples before it. -/
def Measured (dev metric : String) (t : Dict String (Json F)) (now clock : F) (loss : Option F)
    (w lim x : F) (past : List (F × F)) (s : Engine F) : Prop :=
  ∃ before s₁ byRate s₂ byAnomaly s',
    beforeRates dev t now clock s = (.ok before, s₁) ∧
    onRates dev t now clock s₁ = (.ok byRate, s₂) ∧
    onTelemetry dev t now clock loss s = (.ok (before ++ byRate ++ byAnomaly), s') ∧
    -- judged iff there is a sample in the window
    (∃ new, s₂.observed = new ++ s₁.observed ∧ ((∃ o ∈ new, o.rule = rateName metric) ↔
      ∃ e ∈ past, w ≤ now - e.1 ∧ now - e.1 ≤ 2 * w)) ∧
    -- fired by the oldest of them
    (∀ ref, reference w now past = some ref → ref ∈ past ∧ w ≤ now - ref.1 ∧
      now - ref.1 ≤ 2 * w ∧ now - ref.1 ≠ 0) ∧
    (rateName metric ∈ byRate ↔ ∃ ref, reference w now past = some ref ∧
      lim < (x - ref.2) / (now - ref.1)) ∧
    s'.history dev metric = (past ++ [(now, x)]).filter fun e => decide (now - 2 * w ≤ e.1)

omit [IsStrictOrderedRing F] [PyFloat F] [ExactFloat F] [PyText F] in
theorem reference_isSome {w now : F} {past : List (F × F)} : (reference w now past).isSome = true ↔
    ∃ e ∈ past, w ≤ now - e.1 ∧ now - e.1 ≤ 2 * w := by
  rw [reference, List.find?_isSome]
  simp only [Bool.and_eq_true, decide_eq_true_eq]

/-- A rate rule in force, and a sample of its metric. -/
structure RateRule (r : Dict String (Json F)) (metric : String) (w lim : F) : Prop where
  rules : RulesOk r
  spec : ∃ rates spec, Dict.get? r "rate" = some (.obj rates) ∧ Dict.Distinct rates ∧
    Dict.get? rates metric = some (.obj spec) ∧
    (entry spec "window_s" (lit 5.0)).toFloat = .ok w ∧
    (entry spec "max_per_s" (lit 2.0)).toFloat = .ok lim
  window : 0 < w

/-- From a history that stands for the past. -/
theorem measured_of_history {w lim now x : F} {v : Json F} (hrule : RateRule r metric w lim)
    (ht : Sampled t) (hrange : InRange t) (hget : Dict.get? t metric = some v)
    (hx : v.toFloat = .ok x) {past hist : List (F × F)} {s : Engine F} (hs : Ready r s)
    (hhist : s.history dev metric = hist) (hord : Ordered (hist ++ [(now, x)]))
    (hreference : reference w now hist = reference w now past)
    (hsince : since (now - 2 * w) (hist ++ [(now, x)]) = since (now - 2 * w) (past ++ [(now, x)]))
    (clock : F) (loss : Option F) : Measured dev metric t now clock loss w lim x past s := by
  obtain ⟨rates, spec, hrates, hdist, hspec, hw, hlim⟩ := hrule.spec
  -- up to the rate rules
  have hbeforeRates : Triple (Within r dev (fun _ => True) (fun _ => False) s)
      (beforeRates dev t now clock) (fun _ => Within r dev (fun _ => True) (fun _ => False) s)
      (OutOfRange r t) := within_beforeRates ht now clock hrule.rules
  obtain ⟨before, s₁, hbefore, hquiet, hready⟩ :=
    exists_run_of_inRange hrange hbeforeRates (Within.start hs)
  have hhist₁ : s₁.history dev metric = hist := by
    rw [Engine.history, hquiet.histories metric id]
    exact hhist
  -- the rate rules
  have hstart : Windowed r dev metric s₁.observed hist False s₁ :=
    ⟨hready, hhist₁, [], rfl, iff_of_false (by simp) id⟩
  obtain ⟨byRate, s₂, hrates₂, hfired, hwindowed⟩ := exists_run_of_inRange hrange
    (windowed_onRates ht hrule.rules hrates hdist hspec hget hx hw hrule.window hlim hord) hstart
  -- and the rest
  obtain ⟨tail, htail⟩ : ∃ tail : EngineM F (List (Json F)), (do
      let byAnomaly ← onAnomaly dev t now clock
      onLoss dev loss now clock
      return byAnomaly) = tail := ⟨_, rfl⟩
  have hafterRates : Triple (Within r dev (fun _ => True) (fun _ => False) s₂) tail
      (fun _ => Within r dev (fun _ => True) (fun _ => False) s₂) (OutOfRange r t) :=
    htail ▸ within_afterRates ht now clock loss hrule.rules
  obtain ⟨byAnomaly, s', hafter, hquiet', -⟩ :=
    exists_run_of_inRange hrange hafterRates (Within.start hwindowed.ready)
  refine ⟨before, s₁, byRate, s₂, byAnomaly, s', hbefore, hrates₂, ?_, ?_, ?_, ?_, ?_⟩
  · have hsplit : onTelemetry dev t now clock loss = (do
        let before ← beforeRates dev t now clock
        let byRate ← onRates dev t now clock
        let byAnomaly ← tail
        return before ++ byRate ++ byAnomaly) := by
      simp only [← htail, onTelemetry_eq, bind_assoc, pure_bind]
    rw [hsplit, bind_run_ok hbefore, bind_run_ok hrates₂, bind_run_ok hafter]
    rfl
  · rw [← reference_isSome, ← hreference]
    exact hwindowed.observed
  · intro ref href
    have hfound := List.find?_some href
    simp only [Bool.and_eq_true, decide_eq_true_eq] at hfound
    refine ⟨List.mem_of_find?_eq_some href, hfound.1, hfound.2, ?_⟩
    exact (lt_of_lt_of_le hrule.window hfound.1).ne'
  · rw [← hreference]
    exact hfired
  · rw [Engine.history, hquiet'.histories metric id]
    exact hwindowed.history.trans hsince

end Sample

/-! ## The past of a metric -/

section Past

variable {w : F} {dev metric : String}

/-- The sample of the metric in an event. -/
def rateSample (dev metric : String) : EngineEvent F → Option (F × F)
  | .telemetry other t now _ _ =>
    if other = dev then
      (Dict.get? t metric).bind fun v => v.toFloat.toOption.map fun x => (now, x)
    else none
  | _ => none

/-- All samples of the metric. -/
def pastOf (dev metric : String) (events : List (EngineEvent F)) : List (F × F) :=
  events.filterMap (rateSample dev metric)

/-- What the history keeps of the past: it was cut on the newest sample. -/
def kept (w : F) (past : List (F × F)) : List (F × F) :=
  (past.getLast?.map fun e => since (e.1 - 2 * w) past).getD []

omit [IsStrictOrderedRing F] [PyFloat F] [ExactFloat F] in
theorem kept_append (past : List (F × F)) (now x : F) :
    kept w (past ++ [(now, x)]) = since (now - 2 * w) (past ++ [(now, x)]) := by
  rw [kept, List.getLast?_concat]
  rfl

omit [PyFloat F] [ExactFloat F] in
/-- On the next sample, what was dropped would be dropped again. -/
theorem kept_cases {past : List (F × F)} {now x : F} (h : Ordered (past ++ [(now, x)])) :
    ∃ bound, bound ≤ now - 2 * w ∧ kept w past = since bound past := by
  rcases hlast : past.getLast? with _ | e
  · rw [List.getLast?_eq_none_iff] at hlast
    subst hlast
    exact ⟨now - 2 * w, le_rfl, rfl⟩
  · refine ⟨e.1 - 2 * w, ?_, by rw [kept, hlast]; rfl⟩
    have hle : e.1 ≤ now :=
      (List.pairwise_append.mp h).2.2 e (List.mem_of_getLast? hlast) (now, x) List.mem_cons_self
    linarith

omit [PyFloat F] [ExactFloat F] in
theorem since_kept {past : List (F × F)} {now x : F} (h : Ordered (past ++ [(now, x)])) :
    since (now - 2 * w) (kept w past ++ [(now, x)]) = since (now - 2 * w) (past ++ [(now, x)]) := by
  obtain ⟨bound, hbound, hkept⟩ := kept_cases (w := w) h
  rw [since_append, since_append, hkept, since_since hbound]

omit [PyFloat F] [ExactFloat F] in
/-- The samples that were dropped are no reference. -/
theorem reference_kept {past : List (F × F)} {now x : F} (h : Ordered (past ++ [(now, x)])) :
    reference w now (kept w past) = reference w now past := by
  obtain ⟨bound, hbound, hkept⟩ := kept_cases (w := w) h
  rw [hkept, reference, reference, since, List.find?_filter]
  congr 1
  funext e
  by_cases hle : bound ≤ e.1
  · simp [hle]
  · -- older than two windows
    have hold : ¬ now - e.1 ≤ 2 * w := by
      rw [not_le] at hle ⊢
      linarith
    simp [hle, hold]

omit [PyFloat F] [ExactFloat F] in
theorem ordered_kept {past : List (F × F)} {now x : F} (h : Ordered (past ++ [(now, x)])) :
    Ordered (kept w past ++ [(now, x)]) := by
  obtain ⟨bound, hbound, hkept⟩ := kept_cases (w := w) h
  obtain ⟨hpast, -, hlast⟩ := List.pairwise_append.mp h
  rw [hkept]
  refine Ordered.append_singleton (Ordered.since hpast) fun e he => ?_
  exact hlast e (List.mem_of_mem_filter he) _ List.mem_cons_self

end Past

/-! ## A run -/

section Run

variable [PyText F] {r : Dict String (Json F)} {dev metric : String}

/-- The rules stay, and what is received can be evaluated. -/
def Regular : EngineEvent F → Prop
  | .telemetry _ t _ _ _ => Sampled t ∧ InRange t
  | e => Steady e

omit [Field F] [LinearOrder F] [IsStrictOrderedRing F] [ExactFloat F] [PyText F] in
theorem Regular.steady {e : EngineEvent F} (h : Regular e) : Steady e := by
  cases e with
  | telemetry other t now clock loss => exact h.1
  | _ => exact h

/-- An event without a sample of the metric leaves its history. -/
theorem history_step (hr : RulesOk r) {e : EngineEvent F} (he : Regular e)
    (hnone : rateSample dev metric e = none)
    (hnumeric : metric ∈ SAMPLE_FIELDS → metric ∈ NUMERIC_FIELDS) {s : Engine F} (hs : Ready r s) :
    (step s e).history dev metric = s.history dev metric := by
  have hsame : ∀ {s'}, Quiet dev (fun _ => True) (fun key => key ≠ metric) s s' →
      s'.history dev metric = s.history dev metric := by
    intro s' hquiet
    rw [Engine.history, Engine.history, hquiet.histories metric (not_not.mpr rfl)]
  have hnew : Keeps (Quiet dev (fun _ => True) (fun key => key ≠ metric)) (newSample (F := F)) :=
    Keeps.modify fun _ => .of_record rfl
  have hkeeps : ∀ {m : EngineM F Unit},
      Keeps (Quiet dev (fun _ => True) (fun key => key ≠ metric)) m →
      Keeps (Quiet dev (fun _ => True) (fun key => key ≠ metric))
        (m >>= fun _ => (Pure.pure [] : EngineM F (List (Json F)))) :=
    fun hm => hm.bind fun _ => Keeps.pure _
  cases e with
  | telemetry other t now clock loss =>
    have hready : Ready r { s with samples := s.samples + 1 } := hs.congr rfl rfl rfl rfl hs.devices
    by_cases hdev : dev = other
    · subst hdev
      -- no value of the metric
      have hget : Dict.get? t metric = none := by
        rcases hget : Dict.get? t metric with _ | v
        · rfl
        obtain ⟨x, hx⟩ := he.2 metric (hnumeric (he.1.fields metric (by rw [hget]; rfl))) v hget
        rw [rateSample, if_pos rfl, hget, Option.bind_some, hx] at hnone
        cases hnone
      have hrun : Triple (Within r dev (fun _ => True) (fun key => key ≠ metric)
            { s with samples := s.samples + 1 })
          (onTelemetry dev t now clock loss)
          (fun _ => Within r dev (fun _ => True) (fun key => key ≠ metric)
            { s with samples := s.samples + 1 }) (OutOfRange r t) := by
        refine within_onTelemetry he.1 now clock loss hr (fun _ => trivial) fun key hkey heq => ?_
        rw [heq, hget] at hkey
        cases hkey
      obtain ⟨names, s', hout, hquiet, -⟩ := exists_run_of_inRange he.2 hrun (.start hready)
      have hstep : step s (.telemetry dev t now clock loss) = s' := by
        rw [step, handle, newSample, modify_bind_run, hout]
      rw [hstep]
      exact hsame ⟨hquiet.averages, hquiet.histories⟩
    · have hother : Keeps (SameRecord dev) (handle (.telemetry other t now clock loss)) :=
        Keeps.bind (Keeps.modify fun _ => ⟨rfl, rfl⟩) fun _ =>
          fun s => (sampleFrame_sameRecord hdev now clock).onTelemetry t loss s
            (namesOk_true _)
      exact hsame (.of_record (hother s).2)
  | comm other loss now clock =>
    exact hsame ((hnew.bind fun _ => hkeeps (keeps_quiet_onComm other loss now clock)) s)
  | offline other now clock =>
    exact hsame ((hnew.bind fun _ => hkeeps (keeps_quiet_onOffline other now clock)) s)
  | online other now clock =>
    exact hsame (hkeeps (keeps_onOnline (keeps_quiet_resolve now clock) other) s)
  | tick now clock =>
    exact hsame (hkeeps (keeps_tick (keeps_quiet_resolve now clock) keeps_quiet_st) s)
  | setRules rules => exact he.elim
  | restart => exact he.elim
  | invalidateConfig other => rfl
  | ackAlert aid clock => rfl
  | write db => rfl

/-- Ready, and the history is what is kept of the past. -/
structure Recorded (r : Dict String (Json F)) (dev metric : String) (w : F) (past : List (F × F))
    (s : Engine F) : Prop where
  ready : Ready r s
  history : s.history dev metric = kept w past

omit [Field F] [LinearOrder F] [IsStrictOrderedRing F] [ExactFloat F] [PyText F] in
/-- A sample of the metric is a telemetry event with a number in it. -/
theorem rateSample_eq_some {e : EngineEvent F} {now x : F}
    (h : rateSample dev metric e = some (now, x)) :
    ∃ t clock loss v, e = .telemetry dev t now clock loss ∧ Dict.get? t metric = some v ∧
      v.toFloat = .ok x := by
  cases e with
  | telemetry other t now' clock loss =>
    rw [rateSample] at h
    split at h
    · next hdev =>
      obtain ⟨v, hget, hv⟩ := Option.bind_eq_some_iff.mp h
      obtain ⟨x', hx', heq⟩ := Option.map_eq_some_iff.mp hv
      obtain ⟨rfl, rfl⟩ := Prod.mk.inj heq
      refine ⟨t, clock, loss, v, by rw [hdev], hget, ?_⟩
      rcases hfloat : v.toFloat with _ | x'
      · rw [hfloat] at hx'
        cases hx'
      · rw [hfloat] at hx'
        rw [Option.some.inj hx']
    · cases h
  | _ => cases h

/-- One sample, from a history that is what is kept of the past. -/
theorem Recorded.measured {w lim now x : F} {v : Json F} {t : Dict String (Json F)}
    {past : List (F × F)} {s : Engine F} (h : Recorded r dev metric w past s)
    (hrule : RateRule r metric w lim) (ht : Sampled t) (hrange : InRange t)
    (hget : Dict.get? t metric = some v) (hx : v.toFloat = .ok x)
    (hord : Ordered (past ++ [(now, x)])) (clock : F) (loss : Option F) :
    Measured dev metric t now clock loss w lim x past s :=
  measured_of_history hrule ht hrange hget hx h.ready h.history (ordered_kept hord)
    (reference_kept hord) (since_kept hord) clock loss

/-- One event. -/
theorem recorded_step {w lim : F} {past : List (F × F)} {s : Engine F} {e : EngineEvent F}
    (hrule : RateRule r metric w lim) (h : Recorded r dev metric w past s) (he : Regular e)
    (hord : Ordered (past ++ (rateSample dev metric e).toList)) :
    Recorded r dev metric w (past ++ (rateSample dev metric e).toList) (step s e) := by
  have hready : Ready r (step s e) := (ready_handle hrule.rules he.steady).state h.ready
  obtain ⟨rates, spec, hrates, -, hspec, -⟩ := hrule.spec
  rcases hsample : rateSample dev metric e with _ | ⟨now, x⟩
  -- no sample of the metric: the history stays, and the window keeps nothing new
  · refine ⟨hready, ?_⟩
    have hnumeric : metric ∈ SAMPLE_FIELDS → metric ∈ NUMERIC_FIELDS := by
      obtain ⟨rates', hrates', hok⟩ := hrule.rules.rates
      have hmem : (metric, Json.obj spec) ∈ rates' := by
        have hobj : Json.orElse (some (.obj rates)) (.obj []) = (.obj rates : Json F) := by
          rw [Json.orElse, if_pos]
          have hmem := Dict.get?_mem (.of_lawful metric) hspec
          cases rates with
          | nil => cases hmem
          | cons e rates => rfl
        rw [hrates, hobj] at hrates'
        exact Json.obj.inj hrates' ▸ Dict.get?_mem (.of_lawful metric) hspec
      exact fun hfield => (hok _ hmem hfield).1
    rw [history_step hrule.rules he hsample hnumeric h.ready, h.history]
    exact congrArg (kept w) (List.append_nil past).symm
  · obtain ⟨t, clock, loss, v, rfl, hget, hx⟩ := rateSample_eq_some hsample
    rw [hsample] at hord
    -- a sample: what `measured` says of one evaluation
    have hbefore : Recorded r dev metric w past { s with samples := s.samples + 1 } :=
      ⟨h.ready.congr rfl rfl rfl rfl h.ready.devices, h.history⟩
    obtain ⟨before, s₁, byRate, s₂, byAnomaly, s', -, -, hrun, -, -, -, hhistory⟩ :=
      hbefore.measured hrule he.1 he.2 hget hx hord clock loss
    have hstep : step s (.telemetry dev t now clock loss) = s' := by
      rw [step, handle, newSample, modify_bind_run, hrun]
    refine ⟨hready, ?_⟩
    rw [hstep, hhistory]
    exact (kept_append past now x).symm

/-- A run of events. -/
theorem recorded_run {w lim : F} {past : List (F × F)} {s : Engine F}
    (hrule : RateRule r metric w lim) (h : Recorded r dev metric w past s)
    {events : List (EngineEvent F)} (hevents : ∀ e ∈ events, Regular e)
    (hord : Ordered (past ++ pastOf dev metric events)) :
    Recorded r dev metric w (past ++ pastOf dev metric events) (exec step s events) := by
  induction events generalizing past s with
  | nil => simpa [pastOf] using h
  | cons e events ih =>
    obtain ⟨he, hevents⟩ := List.forall_mem_cons.mp hevents
    have hpast : pastOf dev metric (e :: events) =
        (rateSample dev metric e).toList ++ pastOf dev metric events := by
      rw [pastOf, List.filterMap_cons]
      cases rateSample dev metric e <;> rfl
    rw [hpast, ← List.append_assoc] at hord ⊢
    exact ih (recorded_step hrule h he (List.pairwise_append.mp hord).1) hevents hord

/-- After any run of a process under rules that stay, a sample of the metric is
    measured against the window of all samples before it. -/
theorem rate_rule_measures {w lim : F} {db : Database F} (hrows : ∀ row ∈ db.configs, RowOk row)
    (hrule : RateRule (init db).rules metric w lim) {events : List (EngineEvent F)}
    (hevents : ∀ e ∈ events, Regular e) {t : Dict String (Json F)} (ht : Sampled t)
    (hrange : InRange t) {v : Json F} (hget : Dict.get? t metric = some v) {now x : F}
    (hx : v.toFloat = .ok x) (hord : Ordered (pastOf dev metric events ++ [(now, x)])) (clock : F)
    (loss : Option F) :
    Measured dev metric t now clock loss w lim x (pastOf dev metric events)
      (exec step (init db) events) := by
  have hstart : Recorded (init db).rules dev metric w [] (init db) :=
    ⟨⟨rfl, fun _ => rfl, nofun, hrows, nofun⟩, rfl⟩
  have hrun := recorded_run hrule hstart hevents (List.pairwise_append.mp hord).1
  exact hrun.measured hrule ht hrange hget hx hord clock loss

/-! ## Every window and every limit -/

/-- A document with one rate rule. -/
def rateDocument (w lim : F) : Dict String (Json F) :=
  [("rate", .obj [("temp_c", .obj [("window_s", .float w), ("max_per_s", .float lim)])])]

/-- The rule of a document that names it. -/
theorem rateRule_document {w : F} (hw : 0 < w) (lim : F) :
    RateRule (mergeRules (rateDocument w lim)) "temp_c" w lim where
  rules := by
    refine ⟨rulesOk_default.hold, rulesOk_default.thresholds, rulesOk_default.flags, ?_,
      rulesOk_default.anomaly, rulesOk_default.comm⟩
    refine ⟨_, rfl, List.forall_mem_singleton.mpr fun _ => ⟨?_, _, rfl, w, rfl, ?_, ?_⟩⟩
    · show "temp_c" ∈ NUMERIC_FIELDS
      decide
    · rw [Bool.eq_false_iff, Ne, ExactFloat.le_iff, ExactFloat.ofRat_eq, Rat.cast_zero, not_le]
      exact hw
    · exact fun _ _ => ⟨lim, rfl, fun _ _ => Json.storable_str _⟩
  spec := ⟨_, _, rfl, List.nodup_singleton _, rfl, rfl, rfl⟩
  window := hw

omit [IsStrictOrderedRing F] in
/-- Exact arithmetic has every integer. -/
theorem inRange_exact (dev : String) (hdr : Protocol.Header) (t : Protocol.Telemetry)
    (now loss : F) :
    InRange (Ingest.sample dev hdr t now loss) := by
  intro key hkey v hget
  simp only [NUMERIC_FIELDS, List.mem_cons, List.not_mem_nil, or_false] at hkey
  rcases hkey with
      rfl | rfl | rfl | rfl | rfl | rfl | rfl | rfl | rfl | rfl | rfl | rfl | rfl | rfl <;>
    cases hget
  any_goals exact ⟨_, rfl⟩
  all_goals exact ⟨_, ExactFloat.ofInt_eq _⟩

end Run

/-- A sample at rest. -/
noncomputable def restAt (now : ℝ) : Dict String (Json ℝ) :=
  Ingest.sample "ECU-1" (Ingest.restingHeader 5 1 1) (Ingest.restingAt 5) now 0

/-- Two samples, then a third; a window of a second and a half. -/
theorem rate_rule_measures_rest :
    let x : ℝ := PyFloat.ofF64 (F64.ofNat 20)
    let db : Database ℝ := { rules := some (rateDocument (3 / 2) 7) }
    let events := [EngineEvent.telemetry "ECU-1" (restAt 1) 1 1 (some 0),
      .telemetry "ECU-1" (restAt 2) 2 2 (some 0)]
    pastOf "ECU-1" "temp_c" events = [(1, x), (2, x)] ∧
      Measured "ECU-1" "temp_c" (restAt 4) 4 4 (some 0) (3 / 2) 7 x
        (pastOf "ECU-1" "temp_c" events) (exec step (init db) events) := by
  intro x db events
  have hpast : pastOf "ECU-1" "temp_c" events = [(1, x), (2, x)] := rfl
  have hrest : ∀ now, Sampled (restAt now) ∧ InRange (restAt now) :=
    fun now => ⟨sampled_sample .., inRange_exact _ _ _ _ _⟩
  have hrule : RateRule (init db).rules "temp_c" (3 / 2) 7 := rateRule_document (by norm_num) 7
  have hrows : ∀ row ∈ db.configs, RowOk row := fun row hrow => absurd hrow List.not_mem_nil
  refine ⟨hpast, rate_rule_measures hrows hrule ?_ (hrest 4).1 (hrest 4).2 rfl rfl ?_ 4 (some 0)⟩
  · simp only [events, List.forall_mem_cons]
    exact ⟨hrest 1, hrest 2, nofun⟩
  -- the samples are in order of time
  · rw [hpast]
    simp only [Ordered, List.cons_append, List.nil_append, List.pairwise_cons, List.mem_cons,
      List.not_mem_nil, or_false, forall_eq_or_imp, forall_eq, IsEmpty.forall_iff, implies_true,
      List.Pairwise.nil, and_true]
    norm_num

end EcuTelemetry.Backend.Engine
