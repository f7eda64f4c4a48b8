/-
  EcuTelemetry.Sim.AlertChecks

  The alert checks of sim/run_sil.py (alert_open, alert_resolved and
  no_alerts_of_severity) on what GET /api/alerts answers, against the lifecycle
  and the severities of the backend.

  The details that a check prints are left out.
-/

import Mathlib.Data.List.Infix
import EcuTelemetry.Backend.ExactFloat
import EcuTelemetry.Backend.Rules

namespace EcuTelemetry.Backend

variable {F : Type}

/-! ## What the backend answers -/

def AlertStatus.text : AlertStatus → String
  | .opened => "open"
  | .acked => "acked"
  | .resolved => "resolved"

/-- `Database.alerts`. -/
def Database.alertsPage (db : Database F) (deviceId : Option String) (status : String)
    (limit : ℕ) : List (AlertRow F) :=
  let device (a : AlertRow F) : Bool :=
    match deviceId with
    | some dev => if dev ≠ "" then a.deviceId = dev else true
    | none => true
  let wanted (a : AlertRow F) : Bool :=
    if status = "open" then a.status.unresolved
    else if status = "resolved" ∨ status = "acked" then a.status.text = status
    else true
  (db.alerts.reverse.filter fun a => device a && wanted a).take limit

variable [PyText F]

def textColumn : Option String → Json F
  | some s => .str s
  | none => .null

def timeColumn : Option F → Json F
  | some x => .float x
  | none => .null

def isoColumn : Option F → Json F
  | some x => .str (PyText.iso x)
  | none => .null

/-- `_fmt_alert` of a row. -/
def AlertRow.fmt (a : AlertRow F) : Dict String (Json F) :=
  [("id", .int a.id), ("device_id", .str a.deviceId), ("rule", textColumn a.rule),
   ("metric", textColumn a.metric), ("value", timeColumn a.value),
   ("severity", textColumn a.severity), ("status", .str a.status.text),
   ("message", textColumn a.message), ("opened_at", .float a.openedAt),
   ("acked_at", timeColumn a.ackedAt), ("resolved_at", timeColumn a.resolvedAt),
   ("updated_at", .float a.updatedAt),
   ("opened_at_iso", .str (PyText.iso a.openedAt)), ("acked_at_iso", isoColumn a.ackedAt),
   ("resolved_at_iso", isoColumn a.resolvedAt), ("updated_at_iso", .str (PyText.iso a.updatedAt))]

/-! ## The severities of a rule document -/

namespace Json

/-- The texts at a "severity", or under its flags. -/
def severityTexts : Json F → List String
  | .str s => [s]
  | .obj kvs => kvs.filterMap fun kv => match kv.2 with | .str s => some s | _ => none
  | _ => []

mutual

/-- All severities that a rule document names. -/
def severities : Json F → List String
  | .arr xs => severitiesList xs
  | .obj kvs => severitiesFields kvs
  | _ => []

def severitiesList : List (Json F) → List String
  | [] => []
  | x :: xs => severities x ++ severitiesList xs

def severitiesFields : List (String × Json F) → List String
  | [] => []
  | (k, v) :: kvs =>
    (if k = "severity" then severityTexts v else severities v) ++ severitiesFields kvs

end

end Json

end EcuTelemetry.Backend

namespace EcuTelemetry.Sim

open Backend

variable {F : Type} [PyFloat F] [PyText F]

/-! ## The harness -/

def SEVERITIES : List String := ["info", "warning", "critical"]

/-- The texts of Python that depend on more than is modelled here. -/
structure Texts (F : Type) where
  /-- `json.dumps(a, default=str)` -/
  dumps : Dict String (Json F) → String
  /-- `str.lower` -/
  lower : String → String
  /-- `str.lower` of a text with a lone surrogate -/
  lowerLone : LoneText → LoneText
  /-- Small letters are their own lower case. -/
  lower_small : ∀ s : String, (s.toList.all fun c => 'a' ≤ c ∧ c ≤ 'z') → lower s = s

/-- `v.lower()`, which only a text has. -/
def Texts.lowerText (t : Texts F) : Json F → Except PyError (Json F)
  | .str s => .ok (.str (t.lower s))
  | .lone s => .ok (.lone (t.lowerLone s))
  | _ => .error .attributeError

/-- `str(v).lower()`. -/
def Texts.lowerStr (t : Texts F) : Json F → Json F
  | .lone s => .lone (t.lowerLone s)
  | v => .str (t.lower (PyText.pyStr v))

/-- `httpx` with its base address: the body of the answer, unless it raises. -/
structure Api (F : Type) where
  getAlerts : Option String → String → ℕ → Except Unit (Json F)

/-- `Api.alerts`. -/
def Api.alerts (api : Api F) (device : Option String) (status : String) :
    Except PyError (List (Dict String (Json F))) :=
  match api.getAlerts (device.filter (· ≠ "")) status 500 with
  | .error _ => .ok []
  | .ok data =>
    let data := match data with
      | .obj kvs =>
        Json.orElse (Dict.get? kvs "alerts") (Json.orElse (Dict.get? kvs "items") (.arr []))
      | data => data
    data.iter.map (·.filterMap fun | .obj kvs => some kvs | _ => none)

/-- `alert_text`; `json.dumps` escapes what is not ASCII. -/
def alertText (t : Texts F) (a : Dict String (Json F)) : String := t.lower (t.dumps a)

def alertIsOpen (t : Texts F) (a : Dict String (Json F)) : Bool :=
  let st := t.lowerStr ((Dict.get? a "status").getD (.str ""))
  if st.truthy then st == .str "open"
  else
    match (Dict.get? a "resolved_at").getD .null with
    | .null => !((Dict.get? a "resolved").getD (.bool false)).truthy
    | _ => false

/-- `[match] if isinstance(match, str) else list(match)` -/
def needles : Json F → Except PyError (List (Json F))
  | .str s => .ok [.str s]
  | .lone s => .ok [.lone s]
  | m => m.iter

def alertMatches (t : Texts F) (a : Dict String (Json F)) (needles : List (Json F)) : Bool :=
  needles.any fun n =>
    match t.lowerStr n with
    | .str s => s.toList <:+: (alertText t a).toList
    | _ => false

def alertDevice (a : Dict String (Json F)) : Json F :=
  Json.orElse (Dict.get? a "device_id") ((Dict.get? a "device").getD .null)

/-- `alert_device(a) in (None, did)` -/
def ofDevice (did : String) (a : Dict String (Json F)) : Bool :=
  match alertDevice a with
  | .null => true
  | dev => dev == .str did

/-- `if did: alerts = [...]` -/
def forDevice (did : Option String) (alerts : List (Dict String (Json F))) :
    List (Dict String (Json F)) :=
  match did.filter (· ≠ "") with
  | some did => alerts.filter (ofDevice did)
  | none => alerts

inductive AlertCheck
  | alertOpen
  | alertResolved
  | noAlertsOfSeverity
deriving DecidableEq, Repr

/-- The needles, which are not read where there is no alert. -/
def needlesFor (alerts : List (Dict String (Json F))) (m : Json F) :
    Except PyError (List (Json F)) :=
  if alerts.isEmpty then .ok [] else needles m

/-- alert_open and alert_resolved; without a "match" every branch raises. -/
def evalMatch (t : Texts F) (api : Api F) (wantOpen : Bool) (did : Option String)
    (params : Dict String (Json F)) : Except PyError Bool := do
  let alerts ← api.alerts did "all"
  let m ← (Dict.get? params "match").elim (.error .keyError) .ok
  let needles ← needlesFor alerts m
  let alerts := forDevice did (alerts.filter fun a => alertMatches t a needles)
  return !(alerts.filter fun a => alertIsOpen t a = wantOpen).isEmpty

/-- no_alerts_of_severity. -/
def evalSeverity (t : Texts F) (api : Api F) (did : Option String)
    (params : Dict String (Json F)) : Except PyError Bool :=
  match Dict.get? params "severity" with
  | none => .error .keyError
  | some severity => do
    let sev ← t.lowerText severity
    let alerts ← api.alerts did "open"
    let alerts := alerts.filter fun a =>
      t.lowerStr ((Dict.get? a "severity").getD (.str "")) == sev
    return (forDevice did alerts).isEmpty

/-- `eval_check` of the alert checks: does it pass? -/
def evalCheck (t : Texts F) (api : Api F) (check : AlertCheck) (did : Option String)
    (params : Dict String (Json F)) : Except PyError Bool :=
  match check with
  | .alertOpen => evalMatch t api true did params
  | .alertResolved => evalMatch t api false did params
  | .noAlertsOfSeverity => evalSeverity t api did params

/-! ## The backend behind the harness -/

/-- GET /api/alerts over a table. -/
def backendApi (db : Database F) : Api F :=
  { getAlerts := fun device status limit =>
      .ok (.arr ((db.alertsPage device status limit).map fun a => .obj (a.fmt))) }

section Rows

variable {t : Texts F} {db : Database F} {did : Option String}

omit [PyFloat F] [PyText F] in
/-- An empty device filter is no filter. -/
theorem filter_nonempty (did : Option String) (db : Database F) (status : String) :
    db.alertsPage (did.filter (· ≠ "")) status 500 = db.alertsPage did status 500 := by
  cases did with
  | none => rfl
  | some dev =>
    by_cases hdev : dev = ""
    · subst hdev
      rfl
    · rw [Option.filter_some_pos (by simpa using hdev)]

theorem backend_alerts (status : String) :
    (backendApi db).alerts did status =
      .ok ((db.alertsPage did status 500).map AlertRow.fmt) := by
  simp only [Api.alerts, backendApi, filter_nonempty, Json.iter, Except.map, Except.ok.injEq]
  rw [List.filterMap_map]
  exact congrFun List.filterMap_eq_map' _

omit [PyFloat F] in
theorem lowerStr_str [PlainText F] (s : String) : t.lowerStr (.str s) = .str (t.lower s) := by
  exact congrArg (fun text => Json.str (t.lower text)) (PlainText.pyStr_str s)

omit [PyFloat F] in
theorem lower_status [PlainText F] (a : AlertRow F) :
    t.lowerStr ((Dict.get? a.fmt "status").getD (.str "")) = .str a.status.text := by
  have hget : (Dict.get? a.fmt "status").getD (.str "") = .str a.status.text := rfl
  have hsmall : t.lower a.status.text = a.status.text := by
    apply t.lower_small
    cases a.status <;> decide
  rw [hget, lowerStr_str, hsmall]

theorem alertIsOpen_iff [PlainText F] (a : AlertRow F) :
    alertIsOpen t a.fmt = true ↔ a.status = .opened := by
  rw [alertIsOpen, lower_status]
  have htruthy : (Json.str a.status.text : Json F).truthy = true := by
    cases a.status <;> rfl
  rw [if_pos htruthy, Json.str_beq, Json.str.injEq]
  cases a.status <;> decide

/-- The rows of a page are the device's. -/
theorem forDevice_page (status : String) (keep : Dict String (Json F) → Bool) :
    forDevice did (((db.alertsPage did status 500).map AlertRow.fmt).filter keep) =
      ((db.alertsPage did status 500).map AlertRow.fmt).filter keep := by
  rw [forDevice]
  cases hdid : did.filter (· ≠ "") with
  | none => rfl
  | some dev =>
    obtain ⟨hsome, hne⟩ := Option.filter_eq_some_iff.mp hdid
    have hne : dev ≠ "" := by simpa using hne
    subst hsome
    apply List.filter_eq_self.mpr
    intro a ha
    obtain ⟨row, hrow, rfl⟩ := List.mem_map.mp (List.mem_filter.mp ha).1
    have hpage := (List.mem_filter.mp (List.mem_of_mem_take hrow)).2
    -- the page of a device has its rows only
    have hdev : row.deviceId = dev := by
      simp only [if_pos hne, Bool.and_eq_true, decide_eq_true_eq] at hpage
      exact hpage.1
    have halert : alertDevice (row.fmt) = .str dev := by
      show Json.orElse (some (.str row.deviceId)) _ = _
      simp [Json.orElse, Json.truthy, hdev, hne]
    rw [ofDevice, halert]
    exact Json.str_beq.mpr rfl

/-! ## What the checks decide -/

/-- The text of the alert has one of the needles. -/
def Matched (t : Texts F) (ns : List (Json F)) (a : AlertRow F) : Prop :=
  alertMatches t (a.fmt) ns = true

instance (t : Texts F) (ns : List (Json F)) (a : AlertRow F) :
    Decidable (Matched t ns a) := inferInstanceAs (Decidable (_ = true))

variable {params : Dict String (Json F)} {m : Json F} {ns : List (Json F)}

/-- `_eval_match` over the page that the backend returns. -/
theorem evalMatch_eq (wantOpen : Bool) (hm : Dict.get? params "match" = some m)
    (hns : needles m = .ok ns) :
    evalMatch t (backendApi db) wantOpen did params =
      .ok !((((db.alertsPage did "all" 500).map AlertRow.fmt).filter
        fun a => alertMatches t a ns).filter fun a => alertIsOpen t a = wantOpen).isEmpty := by
  have heval : evalMatch t (backendApi db) wantOpen did params =
      (needlesFor ((db.alertsPage did "all" 500).map AlertRow.fmt) m).map
        fun ns => !((forDevice did
          (((db.alertsPage did "all" 500).map AlertRow.fmt).filter
            fun a => alertMatches t a ns)).filter fun a => alertIsOpen t a = wantOpen).isEmpty := by
    simp only [evalMatch, backend_alerts, hm]
    rfl
  simp only [forDevice_page] at heval
  rw [heval, needlesFor]
  by_cases hempty : db.alertsPage did "all" 500 = []
  · rw [hempty]
    rfl
  · rw [if_neg (by simpa using hempty), hns]
    rfl

/-- It passes exactly when some row of the page holds every needle. -/
theorem evalMatch_iff [PlainText F] (wantOpen : Bool) (hm : Dict.get? params "match" = some m)
    (hns : needles m = .ok ns) :
    evalMatch t (backendApi db) wantOpen did params = .ok true ↔
      ∃ a ∈ db.alertsPage did "all" 500,
        Matched t ns a ∧ (a.status = .opened ↔ wantOpen = true) := by
  rw [evalMatch_eq wantOpen hm hns, Except.ok.injEq, Bool.not_eq_true', List.isEmpty_eq_false_iff]
  constructor
  · intro hne
    obtain ⟨d, hd⟩ := List.exists_mem_of_ne_nil _ hne
    obtain ⟨hd, hopen⟩ := List.mem_filter.mp hd
    obtain ⟨hd, hmatch⟩ := List.mem_filter.mp hd
    obtain ⟨a, ha, rfl⟩ := List.mem_map.mp hd
    refine ⟨a, ha, hmatch, ?_⟩
    rw [← alertIsOpen_iff (t := t) a, of_decide_eq_true hopen]
  · rintro ⟨a, ha, hmatch, hopen⟩
    apply List.ne_nil_of_mem (a := a.fmt)
    refine List.mem_filter.mpr ⟨List.mem_filter.mpr
      ⟨List.mem_map_of_mem (f := AlertRow.fmt) ha, hmatch⟩, ?_⟩
    rw [← alertIsOpen_iff (t := t) a] at hopen
    exact decide_eq_true (Bool.eq_iff_iff.mpr hopen)

omit [PyFloat F] [PyText F] in
theorem small_of_level {level : String} (h : level ∈ SEVERITIES) : t.lower level = level := by
  apply t.lower_small
  revert level
  decide

/-- What the default rules can write into the column of the severity. -/
def emitted (F : Type) [PyFloat F] : List String :=
  (Json.obj (DEFAULT_RULES : Dict String (Json F))).severities

omit [PyText F] in
theorem mem_emitted {s : String} : s ∈ emitted F ↔ s = "warn" ∨ s = "critical" ∨ s = "info" := by
  have hlist : emitted F =
      ["warn", "critical", "warn", "warn", "warn", "warn", "warn", "critical", "critical",
        "critical", "warn", "warn", "warn", "info", "warn", "critical", "warn", "warn"] := rfl
  rw [hlist]
  simp only [List.mem_cons, List.not_mem_nil, or_false]
  tauto

omit [PyText F] in
theorem small_of_emitted {s : String} (h : s ∈ emitted F) : t.lower s = s := by
  apply t.lower_small
  rcases mem_emitted.mp h with rfl | rfl | rfl <;> decide

/-- For a level of the accepted vocabulary, on rows with severities that the rules emit. -/
theorem evalSeverity_iff [PlainText F]
    (hsev : ∀ a ∈ db.alerts, ∃ s ∈ emitted F, a.severity = some s)
    {level : String} (hlevel : level ∈ SEVERITIES)
    (hparams : Dict.get? params "severity" = some (.str level)) :
    evalSeverity t (backendApi db) did params = .ok true ↔
      ∀ a ∈ db.alertsPage did "open" 500, a.severity ≠ some level := by
  -- the severities of the rules are in small letters already
  have hlower : ∀ a ∈ db.alertsPage did "open" 500,
      (t.lowerStr ((Dict.get? a.fmt "severity").getD (.str "")) == .str level) = true ↔
        a.severity = some level := by
    intro a ha
    have hmem : a ∈ db.alerts :=
      List.mem_reverse.mp (List.mem_filter.mp (List.mem_of_mem_take ha)).1
    obtain ⟨s, hs, hasev⟩ := hsev a hmem
    have hget : (Dict.get? a.fmt "severity").getD (.str "") = .str s := by
      show textColumn a.severity = .str s
      rw [hasev]
      rfl
    rw [hget, lowerStr_str, small_of_emitted hs, hasev, Option.some.injEq, Json.str_beq,
      Json.str.injEq]
    exact eq_comm
  simp only [evalSeverity, hparams, backend_alerts, Texts.lowerText, small_of_level hlevel]
  show Except.ok _ = Except.ok true ↔ _
  rw [forDevice_page, Except.ok.injEq, List.isEmpty_iff, List.filter_eq_nil_iff]
  constructor
  · intro h a ha
    rw [Ne, ← hlower a ha]
    simpa using h _ (List.mem_map_of_mem (f := AlertRow.fmt) ha)
  · intro h d hd
    obtain ⟨a, ha, rfl⟩ := List.mem_map.mp hd
    simpa [hlower a ha] using h a ha

/-! ## Agreement with the backend -/

/-- The checks on a page of alerts mean what the backend means, for which `open` and
    `acked` are unresolved. -/
structure ChecksAgree (t : Texts F) (db : Database F) (did : Option String)
    (params : Dict String (Json F)) (ns : List (Json F)) : Prop where
  opened : evalCheck t (backendApi db) .alertOpen did params = .ok true ↔
    ∃ a ∈ db.alertsPage did "all" 500, Matched t ns a ∧ a.status.unresolved = true
  resolved : evalCheck t (backendApi db) .alertResolved did params = .ok true ↔
    ∃ a ∈ db.alertsPage did "all" 500, Matched t ns a ∧ a.status = .resolved
  severity : ∀ level ∈ SEVERITIES, ∀ params', Dict.get? params' "severity" = some (.str level) →
    (evalCheck t (backendApi db) .noAlertsOfSeverity did params' = .ok true ↔
      ∀ a ∈ db.alertsPage did "open" 500, a.severity ≠ some level)

/-- A level that the scenarios can ask for finds alerts of this severity; the test is
    that of no_alerts_of_severity. -/
def Covered (t : Texts F) (severity : String) : Prop :=
  ∃ level ∈ SEVERITIES, t.lower severity = t.lower level

omit [PyText F] in
/-- No level is "warn", and each other severity of the rules is a level. -/
theorem covered_iff {s : String} (hs : s ∈ emitted F) : Covered t s ↔ s ≠ "warn" := by
  have hlevels : Covered t s ↔ s ∈ SEVERITIES := by
    rw [Covered, small_of_emitted hs]
    constructor
    · rintro ⟨level, hlevel, heq⟩
      rw [heq, small_of_level hlevel]
      exact hlevel
    · exact fun h => ⟨s, h, (small_of_level h).symm⟩
  rw [hlevels]
  rcases mem_emitted.mp hs with rfl | rfl | rfl <;> decide

omit [PyFloat F] [PyText F] in
/-- A test for one status decides a larger set of statuses where the others are not
    needed. -/
theorem exists_status_iff {rows : List (AlertRow F)} {P : AlertRow F → Prop}
    {s : AlertStatus} {extra : AlertRow F → Prop} :
    ((∃ a ∈ rows, P a ∧ a.status = s) ↔ ∃ a ∈ rows, P a ∧ (a.status = s ∨ extra a)) ↔
      (∃ a ∈ rows, P a ∧ a.status = s) ∨ ∀ a ∈ rows, P a → ¬ extra a := by
  constructor
  · intro h
    by_cases hs : ∃ a ∈ rows, P a ∧ a.status = s
    · exact .inl hs
    · exact .inr fun a ha hP hextra => hs (h.mpr ⟨a, ha, hP, .inr hextra⟩)
  · rintro (hs | hnone)
    · obtain ⟨a, ha, hP, has⟩ := hs
      exact ⟨fun _ => ⟨a, ha, hP, .inl has⟩, fun _ => ⟨a, ha, hP, has⟩⟩
    · constructor
      · rintro ⟨a, ha, hP, has⟩
        exact ⟨a, ha, hP, .inl has⟩
      · rintro ⟨a, ha, hP, has | hextra⟩
        · exact ⟨a, ha, hP, has⟩
        · exact absurd hextra (hnone a ha hP)

/-- The checks on a page agree with the backend exactly where no acked alert changes an
    answer.  Of the severities of the rules "warn" is the one that no level covers, so
    the vocabularies agree on no page. -/
theorem checks_agree_iff [PlainText F] (t : Texts F) (db : Database F) (did : Option String)
    (params : Dict String (Json F)) (m : Json F) (ns : List (Json F))
    (hm : Dict.get? params "match" = some m) (hns : needles m = .ok ns)
    (hsev : ∀ a ∈ db.alerts, ∃ s ∈ emitted F, a.severity = some s) :
    (ChecksAgree t db did params ns ↔
      ((∃ a ∈ db.alertsPage did "all" 500, Matched t ns a ∧ a.status = .opened) ∨
        ∀ a ∈ db.alertsPage did "all" 500, Matched t ns a → a.status ≠ .acked) ∧
      ((∃ a ∈ db.alertsPage did "all" 500, Matched t ns a ∧ a.status = .resolved) ∨
        ∀ a ∈ db.alertsPage did "all" 500, Matched t ns a → a.status ≠ .acked)) ∧
    (∀ s ∈ emitted F, Covered t s ↔ s ≠ "warn") ∧ ¬ ∀ s ∈ emitted F, Covered t s := by
  -- each check answers whether a matching alert of the page has a status
  have hopened : evalCheck t (backendApi db) .alertOpen did params = .ok true ↔
      ∃ a ∈ db.alertsPage did "all" 500, Matched t ns a ∧ a.status = .opened := by
    have h : evalMatch t (backendApi db) true did params = .ok true ↔ _ :=
      evalMatch_iff true hm hns
    simp only [iff_true] at h
    exact h
  have hresolved : evalCheck t (backendApi db) .alertResolved did params = .ok true ↔
      ∃ a ∈ db.alertsPage did "all" 500, Matched t ns a ∧
        (a.status = .resolved ∨ a.status = .acked) := by
    have hstatus : ∀ s : AlertStatus, (s = .opened ↔ false = true) ↔
        s = .resolved ∨ s = .acked := by
      intro s
      cases s <;> decide
    have h : evalMatch t (backendApi db) false did params = .ok true ↔ _ :=
      evalMatch_iff false hm hns
    simp only [hstatus] at h
    exact h
  have hunresolved : ∀ s : AlertStatus, s.unresolved = true ↔ s = .opened ∨ s = .acked := by
    intro s
    cases s <;> decide
  -- the severities are those of the page in every case, so two equivalences are left
  have hagree : ChecksAgree t db did params ns ↔
      ((∃ a ∈ db.alertsPage did "all" 500, Matched t ns a ∧ a.status = .opened) ↔
        ∃ a ∈ db.alertsPage did "all" 500, Matched t ns a ∧
          (a.status = .opened ∨ a.status = .acked)) ∧
      ((∃ a ∈ db.alertsPage did "all" 500, Matched t ns a ∧ a.status = .resolved) ↔
        ∃ a ∈ db.alertsPage did "all" 500, Matched t ns a ∧
          (a.status = .resolved ∨ a.status = .acked)) := by
    constructor
    · intro h
      have hop := h.opened
      have hre := h.resolved
      rw [hopened] at hop
      rw [hresolved] at hre
      simp only [hunresolved] at hop
      exact ⟨hop, hre.symm⟩
    · rintro ⟨hop, hre⟩
      refine ⟨?_, hresolved.trans hre.symm, ?_⟩
      · simp only [hunresolved]
        exact hopened.trans hop
      · intro level hlevel params' hparams
        exact evalSeverity_iff hsev hlevel hparams
  refine ⟨?_, fun s hs => covered_iff hs, fun hall => ?_⟩
  · rw [hagree, exists_status_iff, exists_status_iff]
  · -- the thresholds of the default rules are warnings
    have hwarn : "warn" ∈ emitted F := mem_emitted.mpr (.inl rfl)
    exact (covered_iff hwarn).mp (hall "warn" hwarn) rfl

end Rows

/-! ## Pages of alerts -/

/-- The JSON text of an alert, as far as its rule, and small letters for capital ones. -/
def someTexts : Texts ℚ :=
  { dumps := fun a =>
      "\x7b\"rule\": \"" ++ PyText.pyStr ((Dict.get? a "rule").getD .null) ++ "\"\x7d"
    lower := fun s =>
      String.ofList (s.toList.map fun c => if 'A' ≤ c ∧ c ≤ 'Z' then c.toLower else c)
    lowerLone := id
    lower_small := by
      intro s hs
      have hmap : s.toList.map (fun c => if 'A' ≤ c ∧ c ≤ 'Z' then c.toLower else c) =
          s.toList := by
        rw [List.map_congr_left (g := id), List.map_id]
        intro c hc
        have hsmall : 'a' ≤ c ∧ c ≤ 'z' := by simpa using List.all_eq_true.mp hs c hc
        have hcapital : ¬ ('A' ≤ c ∧ c ≤ 'Z') :=
          fun h => absurd (Char.le_trans hsmall.1 h.2) (by decide)
        simp only [hcapital, if_false, id]
      rw [hmap, String.ofList_toList] }

/-- An alert about the temperature. -/
def tempAlert (id : ℕ) (rule severity : String) (status : AlertStatus) : AlertRow ℚ :=
  { id, deviceId := "ECU-0001", rule := some rule, metric := some "temp_c"
    value := some 91, severity := some severity, status
    message := some "temp_c=91.00 > 90.00"
    openedAt := 1000, ackedAt := some 1010, resolvedAt := none, updatedAt := 1010 }

/-- The rule was true before, and is again; the rate is acked. -/
def mixedAlerts : Database ℚ :=
  { alerts := [tempAlert 1 "temp_high" "critical" .resolved,
      tempAlert 2 "rate:temp_c" "warn" .acked, tempAlert 3 "temp_high" "critical" .opened]
    nextAlertId := 4 }

/-- With an open and a resolved alert that match too, the acked one changes no answer. -/
theorem checks_agree_iff_mixed :
    ChecksAgree someTexts mixedAlerts (some "ECU-0001") [("match", .str "temp")] [.str "temp"] ∧
      ¬ Covered someTexts "warn" := by
  have hsev : ∀ a ∈ mixedAlerts.alerts, ∃ s ∈ emitted ℚ, a.severity = some s := by
    decide +kernel
  have hpage : mixedAlerts.alertsPage (some "ECU-0001") "all" 500 =
      [tempAlert 3 "temp_high" "critical" .opened, tempAlert 2 "rate:temp_c" "warn" .acked,
        tempAlert 1 "temp_high" "critical" .resolved] := rfl
  have hchecks := checks_agree_iff someTexts mixedAlerts (some "ECU-0001")
    [("match", .str "temp")] (.str "temp") [.str "temp"] rfl rfl hsev
  constructor
  · apply hchecks.1.mpr
    rw [hpage]
    exact ⟨.inl (by decide +kernel), .inl (by decide +kernel)⟩
  · have hwarn : "warn" ∈ emitted ℚ := by decide
    exact fun hcovered => (hchecks.2.1 "warn" hwarn).mp hcovered rfl

/-- The alerts table with one acked alert. -/
def ackedAlert : Database ℚ :=
  { alerts := [tempAlert 1 "temp_high" "warn" .acked], nextAlertId := 2 }

/-- One acked alert of temp_high as the rule writes it: alert_open fails and
    alert_resolved passes although it is unresolved.  No level finds the "warn", and
    none ever would. -/
theorem acked_alert_disagrees :
    ¬ ChecksAgree someTexts ackedAlert (some "ECU-0001")
      [("match", .str "temp_high")] [.str "temp_high"] ∧
    evalCheck someTexts (backendApi ackedAlert) .alertResolved
      (some "ECU-0001") [("match", .str "temp_high")] = .ok true ∧
    (∀ level ∈ SEVERITIES,
      evalCheck someTexts (backendApi ackedAlert)
        .noAlertsOfSeverity (some "ECU-0001") [("severity", .str level)] = .ok true) ∧
    ¬ ∀ s ∈ emitted ℚ, Covered someTexts s := by
  have hfails : evalCheck someTexts (backendApi ackedAlert)
      .alertOpen (some "ECU-0001") [("match", .str "temp_high")] = .ok false := by decide +kernel
  have hwarn : "warn" ∈ emitted ℚ := mem_emitted.mpr (.inl rfl)
  refine ⟨fun h => ?_, by decide +kernel, by decide +kernel, fun hall => ?_⟩
  case refine_2 => exact (covered_iff hwarn).mp (hall "warn" hwarn) rfl
  have hpage : ackedAlert.alertsPage (some "ECU-0001") "all" 500 =
      [tempAlert 1 "temp_high" "warn" .acked] := rfl
  have hpasses := h.opened.mpr ⟨tempAlert 1 "temp_high" "warn" .acked,
    hpage ▸ List.mem_singleton_self _, by decide +kernel, rfl⟩
  rw [hfails] at hpasses
  cases hpasses

end EcuTelemetry.Sim
